import Subp2pExplorer.Notifications.Deliveries

/-! Whose channel is whose. Each period in which a protocol is open has a
channel that no other protocol and no other period has, so what is noted of a
channel is what its period did. -/
namespace Subp2pExplorer.Notifications
open Lib

/-- The protocol at this index is open, with this channel. -/
def Holds {σ : Type} (protocols : List (ProtocolDetails σ)) (i channel : Nat) : Prop :=
  ∃ proto, protocols[i]? = some proto ∧ proto.state.channel = some channel

/-! ## The ledger of a handler -/

section Ledgers
variable {PeerId σ ω : Type} {transport : Transport σ ω} {Broken : σ → Prop} {channels : Nat} {notes added : List Note}
  {protocols : List (ProtocolDetails σ)} {k : Nat} {proto : ProtocolDetails σ}

/-- What holds of the protocols of a handler that has created so many channels,
after what was noted. -/
structure Ledger (Broken : σ → Prop) (channels : Nat) (notes : List Note) (protocols : List (ProtocolDetails σ)) :
    Prop where
  flow : ∀ (i : Nat) (proto : ProtocolDetails σ), protocols[i]? = some proto →
    ∀ recv inbound outbound, proto.state = .opened recv inbound outbound → Flow Broken notes recv outbound
  apart : ∀ i j channel, Holds protocols i channel → Holds protocols j channel → i = j
  created : ∀ i channel, Holds protocols i channel → channel ≤ channels
  noted : ∀ note ∈ notes, note.channel ≤ channels
  ready : ∀ note ∈ notes, note.Ready
  inOrder : ∀ channel, accepts channel notes <+: puts channel notes

theorem channel_opened {state : State σ} {channel : Nat} (held : state.channel = some channel) :
    ∃ recv inbound outbound, state = .opened recv inbound outbound ∧ recv.channel = channel := by
  cases state with
  | opened recv inbound outbound => exact ⟨recv, inbound, outbound, rfl, Option.some.inj held⟩
  | _ => cases held

/-- A protocol that stays in its period, or leaves it, holds nothing new. -/
theorem holds_visited (found : protocols[k]? = some proto) {state : State σ}
    (stays : ∀ channel, state.channel = some channel → proto.state.channel = some channel) {i channel : Nat}
    (holds : Holds (protocols.set k { proto with state := state }) i channel) : Holds protocols i channel := by
  obtain ⟨entry, at_i, held⟩ := holds
  rcases set_entry found at_i with ⟨rfl, rfl⟩ | ⟨_, earlier⟩
  · exact ⟨proto, found, stays channel held⟩
  · exact ⟨entry, earlier, held⟩

/-- A protocol that is visited stays in its period or leaves it, and only its
own channel is noted. -/
theorem Ledger.visit (ledger : Ledger Broken channels notes protocols) (found : protocols[k]? = some proto)
    (state : State σ)
    (kept : ∀ recv inbound outbound, state = .opened recv inbound outbound →
      proto.state.channel = some recv.channel ∧ Flow Broken (notes ++ added) recv outbound)
    (own : ∀ note ∈ added, state.channel = some note.channel ∧ note.Ready) :
    Ledger Broken channels (notes ++ added) (protocols.set k { proto with state := state }) ∧
      ∀ i channel, Holds (protocols.set k { proto with state := state }) i channel → Holds protocols i channel := by
  have stays : ∀ channel, state.channel = some channel → proto.state.channel = some channel := by
    intro channel held
    obtain ⟨recv, inbound, outbound, opened, rfl⟩ := channel_opened held
    exact (kept recv inbound outbound opened).1
  have before : ∀ i channel, Holds (protocols.set k { proto with state := state }) i channel →
      Holds protocols i channel := fun i channel => holds_visited found stays
  refine ⟨?_, before⟩
  constructor
  case flow =>
    intro i entry at_i recv inbound outbound opened
    rcases set_entry found at_i with ⟨rfl, rfl⟩ | ⟨other, earlier⟩
    · exact (kept recv inbound outbound opened).2
    · refine (ledger.flow i entry earlier recv inbound outbound opened).untouched fun note member same => other ?_
      have here : Holds protocols i note.channel := ⟨entry, earlier, by rw [opened, State.channel, same]⟩
      exact ledger.apart i k _ here ⟨proto, found, stays _ (own note member).1⟩
  case apart => exact fun i j channel first second => ledger.apart i j channel (before i _ first) (before j _ second)
  case created => exact fun i channel held => ledger.created i channel (before i channel held)
  case noted =>
    refine List.forall_mem_append.mpr ⟨ledger.noted, fun note new => ?_⟩
    exact ledger.created k _ ⟨proto, found, stays _ (own note new).1⟩
  case ready => exact List.forall_mem_append.mpr ⟨ledger.ready, fun note new => (own note new).2⟩
  case inOrder =>
    intro channel
    by_cases about : ∃ note ∈ added, note.channel = channel
    · obtain ⟨note, member, rfl⟩ := about
      obtain ⟨recv, inbound, outbound, opened, same⟩ := channel_opened (own note member).1
      rw [← same]
      exact (kept recv inbound outbound opened).2.in_order
    · have others : ∀ note ∈ added, note.channel ≠ channel := fun note member same => about ⟨note, member, same⟩
      obtain ⟨noPuts, -, noAccepts⟩ := notes_others others
      rw [puts_append, accepts_append, noPuts, noAccepts, List.append_nil, List.append_nil]
      exact ledger.inOrder channel

/-- A visit without a round that keeps the receiver of an open protocol, and
its substream unless it drops it. -/
theorem Ledger.visit_quiet (ledger : Ledger Broken channels notes protocols) (found : protocols[k]? = some proto)
    (state : State σ)
    (kept : ∀ recv inbound' outbound', state = .opened recv inbound' outbound' →
      ∃ inbound outbound, proto.state = .opened recv inbound outbound ∧
        ∀ out', outbound' = some out' → ∃ out, outbound = some out ∧ (Broken out.socket → Broken out'.socket)) :
    Ledger Broken channels notes (protocols.set k { proto with state := state }) ∧
      ∀ i channel, Holds (protocols.set k { proto with state := state }) i channel → Holds protocols i channel := by
  have within : ∀ recv inbound' outbound', state = .opened recv inbound' outbound' →
      proto.state.channel = some recv.channel ∧ Flow Broken (notes ++ []) recv outbound' := by
    intro recv inbound' outbound' opened
    obtain ⟨inbound, outbound, before, stays⟩ := kept recv inbound' outbound' opened
    rw [List.append_nil, before]
    exact ⟨rfl, (ledger.flow k proto found recv inbound outbound before).replaced stays⟩
  have visited := ledger.visit found state within nofun
  rwa [List.append_nil] at visited

/-- The sending loop of one protocol. -/
theorem Ledger.send (fused : transport.Fused Broken) (ledger : Ledger Broken channels notes protocols)
    (found : protocols[k]? = some proto) (w : ω) :
    Ledger Broken channels (notes ++ stateRounds transport proto.state w)
        (protocols.set k { proto with state := (sendState transport proto.state w).1 }) ∧
      ∀ i channel, Holds (protocols.set k { proto with state := (sendState transport proto.state w).1 }) i channel →
        Holds protocols i channel := by
  have quiet := ledger.visit_quiet found proto.state fun recv inbound outbound opened =>
    ⟨inbound, outbound, opened, fun out' held => ⟨out', held, id⟩⟩
  rw [← List.append_nil notes] at quiet
  cases state : proto.state with
  | opened recv inbound outbound =>
    rw [state] at quiet
    cases outbound with
    | none => exact quiet
    | some outbound =>
      have sent := send_rounds_sent fused recv.messages.length recv outbound w
      rw [send_rounds_result transport] at sent
      have before := ledger.flow k proto found recv inbound (some outbound) state
      refine ledger.visit found _ ?_ ?_
      · intro recv' inbound' outbound' opened
        cases opened
        rw [state, State.channel, sent.channel]
        exact ⟨rfl, before.sent sent⟩
      · intro note member
        obtain ⟨own, ready⟩ := sent.own note member
        exact ⟨congrArg some (sent.channel.trans own.symm), ready⟩
  | _ =>
    rw [state] at quiet
    exact quiet

theorem Ledger.send_pass (fused : transport.Fused Broken) (ledger : Ledger Broken channels notes protocols) (w : ω) :
    Ledger Broken channels (notes ++ passRounds transport protocols w) (pollSend transport protocols w).1 ∧
      ∀ i channel, Holds (pollSend transport protocols w).1 i channel → Holds protocols i channel := by
  have from_cursor : ∀ (rest done : List (ProtocolDetails σ)) (notes : List Note) (w : ω),
      Ledger Broken channels notes (done ++ rest) →
      Ledger Broken channels (notes ++ passRounds transport rest w) (done ++ (pollSend transport rest w).1) ∧
        ∀ i channel, Holds (done ++ (pollSend transport rest w).1) i channel → Holds (done ++ rest) i channel := by
    intro rest
    induction rest with
    | nil =>
      intro done notes w held
      rw [passRounds, List.append_nil]
      exact ⟨held, fun _ _ => id⟩
    | cons proto rest ih =>
      intro done notes w held
      obtain ⟨visited, before⟩ := held.send fused (at_cursor done rest proto) w
      rw [set_cursor] at visited before
      obtain ⟨later, middle⟩ := ih _ _ (sendState transport proto.state w).2 visited
      rw [List.append_assoc done] at later middle
      rw [poll_send_cons, passRounds, ← List.append_assoc]
      exact ⟨later, fun i channel held => before i channel (middle i channel held)⟩
  exact from_cursor protocols [] notes w ledger

/-- A pass without rounds keeps the ledger, whether it ends in an event or not. -/
theorem Ledger.pass (visit : Nat → State σ → ω → Option (ToBehavior PeerId) × State σ × ω)
    (keeps : ∀ k before w event after w', visit k before w = (event, after, w') →
      ∀ recv inbound' outbound', after = .opened recv inbound' outbound' →
        ∃ inbound outbound, before = .opened recv inbound outbound ∧
          ∀ out', outbound' = some out' → ∃ out, outbound = some out ∧ (Broken out.socket → Broken out'.socket))
    (ledger : Ledger Broken channels notes protocols) (w : ω) :
    Ledger Broken channels notes (pass visit 0 protocols w).2.1 ∧
      ∀ i channel, Holds (pass visit 0 protocols w).2.1 i channel → Holds protocols i channel := by
  let J (after : List (ProtocolDetails σ)) (_ : ω) : Prop :=
    Ledger Broken channels notes after ∧ ∀ i channel, Holds after i channel → Holds protocols i channel
  have visited : ∀ {after : List (ProtocolDetails σ)} {k : Nat} {proto : ProtocolDetails σ} {w w' : ω}
      {event : Option (ToBehavior PeerId)} {state : State σ}, J after w → after[k]? = some proto →
      visit k proto.state w = (event, state, w') → J (after.set k { proto with state := state }) w' := by
    intro after k proto w w' event state held found step
    obtain ⟨now, before⟩ := held.1.visit_quiet found state (keeps k _ w event _ w' step)
    exact ⟨now, fun i channel holds => held.2 i channel (before i channel holds)⟩
  have start : J protocols w := ⟨ledger, fun _ _ => id⟩
  have passed := pass_keeps (J := J) (w := w) (fun _ _ _ _ _ _ held found step => visited held found step) start
  rcases passed with ⟨_, kept⟩ | ⟨event, k, proto, before, w', state, _, kept, found, step, last⟩
  · exact kept
  · rw [last]
    exact visited kept found step

/-- A poll keeps the ledger, with its rounds noted. -/
theorem Ledger.poll (fused : transport.Fused Broken) {h : NotificationsHandler PeerId σ}
    (ledger : Ledger Broken h.channels notes h.protocols) (w : ω) :
    (h.poll transport w).2.1.channels = h.channels ∧
      Ledger Broken h.channels (notes ++ pollRounds transport h w) (h.poll transport w).2.1.protocols ∧
      ∀ i channel, Holds (h.poll transport w).2.1.protocols i channel → Holds h.protocols i channel := by
  unfold NotificationsHandler.poll pollRounds
  cases h.pendingEvents with
  | cons event rest =>
    rw [List.append_nil]
    exact ⟨rfl, ledger, fun _ _ => id⟩
  | nil =>
    obtain ⟨sent, first⟩ := ledger.send_pass fused w
    dsimp only
    generalize pollSend transport h.protocols w = after at sent first ⊢
    obtain ⟨protocols, w⟩ := after
    obtain ⟨flushed, second⟩ := Ledger.pass (@flushState PeerId σ ω transport)
      (fun k _ w _ _ w' step _ _ _ => flush_keeps_receiver fused step) sent w
    rw [← poll_flush_pass] at flushed second
    generalize pollFlush transport 0 protocols w = after at flushed second ⊢
    obtain ⟨_ | event, protocols, w⟩ := after
    · obtain ⟨received, third⟩ := Ledger.pass (@pollInboundState PeerId σ ω transport)
        (fun k _ w _ _ w' step _ _ _ => inbound_keeps_receiver step) flushed w
      rw [← poll_inbound_pass] at received third
      dsimp only
      generalize pollInbound transport 0 protocols w = after at received third ⊢
      obtain ⟨_ | event, protocols, w⟩ := after
      all_goals exact ⟨rfl, received, fun i channel held => first i _ (second i _ (third i channel held))⟩
    · exact ⟨rfl, flushed, fun i channel held => first i _ (second i channel held)⟩

/-- A state after a message was put into a channel. -/
def State.delivered (channel : Nat) (message : Bytes) : State σ → State σ
  | .opened recv inboundSubstream outboundSubstream =>
    .opened (recv.send channel message) inboundSubstream outboundSubstream
  | state => state

theorem delivered_channel (channel : Nat) (message : Bytes) (state : State σ) :
    (state.delivered channel message).channel = state.channel := by
  cases state with
  | opened recv inbound outbound =>
    rw [State.delivered, State.channel, State.channel, Receiver.send]
    split <;> rfl
  | _ => rfl

theorem delivered_elsewhere {channel : Nat} {state : State σ} (apart : state.channel ≠ some channel)
    (message : Bytes) : state.delivered channel message = state := by
  cases state with
  | opened recv inbound outbound =>
    have other : recv.channel ≠ channel := fun same => apart (congrArg some same)
    rw [State.delivered, Receiver.send, if_neg other]
  | _ => rfl

/-- A delivery changes receivers only. -/
theorem delivered_entry {channel : Nat} {message : Bytes} {i : Nat} {entry : ProtocolDetails σ}
    (held : (protocols.map fun proto =>
      { proto with state := proto.state.delivered channel message })[i]? = some entry) :
    ∃ proto, protocols[i]? = some proto ∧ entry.state = proto.state.delivered channel message := by
  rw [List.getElem?_map] at held
  obtain ⟨proto, found, rfl⟩ := Option.map_eq_some_iff.mp held
  exact ⟨proto, found, rfl⟩

theorem holds_delivered {channel : Nat} {message : Bytes} {i c : Nat} (holds : Holds (protocols.map fun proto =>
    { proto with state := proto.state.delivered channel message }) i c) : Holds protocols i c := by
  obtain ⟨entry, at_i, held⟩ := holds
  obtain ⟨proto, found, delivered⟩ := delivered_entry at_i
  rw [delivered, delivered_channel] at held
  exact ⟨proto, found, held⟩

/-- A message put into a channel that is received from. -/
theorem Ledger.put_live (ledger : Ledger Broken channels notes protocols) {channel k : Nat}
    (live : Holds protocols k channel) (message : Bytes) :
    Ledger Broken channels (notes ++ [.put channel message])
      (protocols.map fun proto => { proto with state := proto.state.delivered channel message }) := by
  constructor
  case flow =>
    intro i entry held recv inbound outbound opened
    obtain ⟨proto, found, delivered⟩ := delivered_entry held
    rw [opened] at delivered
    cases state : proto.state with
    | opened recv₀ inbound₀ outbound₀ =>
      rw [state] at delivered
      cases delivered
      have flow := ledger.flow i proto found recv₀ _ _ state
      by_cases same : recv₀.channel = channel
      · subst same
        exact flow.put message
      · rw [Receiver.send_messages_other same]
        exact flow.untouched fun note member => by
          rw [List.mem_singleton.mp member]
          exact Ne.symm same
    | _ =>
      rw [state] at delivered
      cases delivered
  case apart =>
    exact fun i j c first second => ledger.apart i j c (holds_delivered first) (holds_delivered second)
  case created => exact fun i c held => ledger.created i c (holds_delivered held)
  case noted =>
    refine List.forall_mem_append.mpr ⟨ledger.noted, ?_⟩
    simpa [Note.channel] using ledger.created k channel live
  case ready =>
    refine List.forall_mem_append.mpr ⟨ledger.ready, ?_⟩
    simp [Note.Ready]
  case inOrder =>
    intro c
    have noAccepts : accepts c [.put channel message] = [] := rfl
    rw [accepts_append, puts_append, noAccepts, List.append_nil]
    exact (ledger.inOrder c).trans (List.prefix_append _ _)

/-- What the user puts into a channel is noted where somebody receives from it. -/
theorem Ledger.put (ledger : Ledger Broken channels notes protocols) (channel : Nat) (message : Bytes) :
    Ledger Broken channels
      (notes ++ if protocols.any fun proto => proto.state.channel = some channel then [.put channel message] else [])
      (protocols.map fun proto => { proto with state := proto.state.delivered channel message }) := by
  by_cases live : ∃ k, Holds protocols k channel
  · obtain ⟨k, held⟩ := live
    have any : (protocols.any fun proto => proto.state.channel = some channel) = true := by
      obtain ⟨proto, found, here⟩ := held
      rw [List.any_eq_true]
      exact ⟨proto, List.mem_of_getElem? found, decide_eq_true here⟩
    rw [any, if_pos rfl]
    exact ledger.put_live held message
  · have absent : ∀ proto ∈ protocols, proto.state.channel ≠ some channel := by
      intro proto member here
      obtain ⟨i, found⟩ := List.mem_iff_getElem?.mp member
      exact live ⟨i, proto, found, here⟩
    have none : ¬ (protocols.any fun proto => proto.state.channel = some channel) = true := by
      rw [List.any_eq_true]
      rintro ⟨proto, member, here⟩
      exact absent proto member (of_decide_eq_true here)
    have same : (protocols.map fun proto => { proto with state := proto.state.delivered channel message }) =
        protocols := by
      conv_rhs => rw [← List.map_id protocols]
      apply List.map_congr_left
      intro proto member
      rw [delivered_elsewhere (absent proto member)]
      rfl
    rw [if_neg none, same, List.append_nil]
    exact ledger

/-- A protocol that opens has a channel that was never used. -/
theorem Ledger.opens (ledger : Ledger Broken channels notes protocols) (found : protocols[k]? = some proto)
    (inbound : Option (HandshakeInboundSubstream σ)) (outbound : Option (HandshakeOutboundSubstream σ)) :
    Ledger Broken (channels + 1) notes
        (protocols.set k { proto with state := .opened ⟨channels + 1, none, []⟩ inbound outbound }) ∧
      ∀ i channel, Holds (protocols.set k { proto with state := .opened ⟨channels + 1, none, []⟩ inbound outbound })
        i channel → (i = k ∧ channel = channels + 1) ∨ Holds protocols i channel := by
  have unused : ∀ note ∈ notes, note.channel ≠ channels + 1 := fun note member same => by
    have := ledger.noted note member
    omega
  have unheld : ∀ i, ¬ Holds protocols i (channels + 1) := fun i held => by
    have := ledger.created i _ held
    omega
  obtain ⟨noPuts, noTakes, noAccepts⟩ := notes_others unused
  have fresh : Flow Broken notes ⟨channels + 1, none, []⟩ outbound := by
    constructor
    · rw [noPuts, noTakes]
      rfl
    · rw [noAccepts]
      exact List.nil_prefix
    · exact fun out _ => .inl (noAccepts.trans noTakes.symm)
  have holds : ∀ i channel, Holds (protocols.set k
      { proto with state := .opened ⟨channels + 1, none, []⟩ inbound outbound }) i channel →
      (i = k ∧ channel = channels + 1) ∨ Holds protocols i channel := by
    rintro i channel ⟨entry, at_i, held⟩
    rcases set_entry found at_i with ⟨rfl, rfl⟩ | ⟨_, earlier⟩
    · exact .inl ⟨rfl, (Option.some.inj held).symm⟩
    · exact .inr ⟨entry, earlier, held⟩
  refine ⟨?_, holds⟩
  constructor
  case flow =>
    intro i entry at_i recv inbound' outbound' opened
    rcases set_entry found at_i with ⟨_, rfl⟩ | ⟨_, earlier⟩
    · cases opened
      exact fresh
    · exact ledger.flow i entry earlier recv inbound' outbound' opened
  case apart =>
    intro i j channel first second
    rcases holds i channel first with ⟨rfl, rfl⟩ | earlier
    · rcases holds j _ second with ⟨rfl, _⟩ | later
      · rfl
      · exact absurd later (unheld j)
    · rcases holds j channel second with ⟨rfl, rfl⟩ | later
      · exact absurd earlier (unheld i)
      · exact ledger.apart i j channel earlier later
  case created =>
    intro i channel held
    rcases holds i channel held with ⟨rfl, rfl⟩ | earlier
    · exact Nat.le_refl _
    · exact Nat.le_succ_of_le (ledger.created i channel earlier)
  case noted => exact fun note member => Nat.le_succ_of_le (ledger.noted note member)
  case ready => exact ledger.ready
  case inOrder => exact ledger.inOrder

end Ledgers

/-! ## Runs -/

section Runs
variable {PeerId σ ω : Type} {transport : Transport σ ω} {Broken : σ → Prop} {notes : List Note}
  {r r' : HandlerRun PeerId σ}

/-- The callback that opens a protocol: our substream is open. -/
def Callback.opens : Callback σ → State σ → Bool
  | .outbound _, .opening _ _ => true
  | _, _ => false

/-- The transition that opens a protocol gives it a channel; the others keep
the receivers of open protocols. -/
theorem effect_keeps_receiver {h : NotificationsHandler PeerId σ} {proto : ProtocolDetails σ} {index : Nat}
    {callback : Callback σ} {before after : State σ} {added : List (HandlerEvent PeerId)}
    (effect : Effect h proto index callback before after added) :
    (callback.opens before = false ∧ ∀ recv inbound' outbound', after = .opened recv inbound' outbound' →
      ∃ inbound, before = .opened recv inbound outbound') ∨
    (callback.opens before = true ∧ ∃ inbound outbound,
      before.channel = none ∧ after = .opened ⟨h.channels + 1, none, []⟩ inbound (some outbound)) := by
  cases effect
  case outboundOpening opened inbound direction => exact .inr ⟨rfl, inbound, opened.substream, rfl, rfl⟩
  all_goals
    refine .inl ⟨rfl, fun recv inbound' outbound' held => ?_⟩
    cases held
  all_goals exact ⟨_, rfl⟩

theorem called_channels (h : NotificationsHandler PeerId σ) (proto : ProtocolDetails σ) (index : Nat)
    (callback : Callback σ) :
    (h.called proto index callback).channels = h.channels + (callback.opens proto.state).toNat := by
  cases callback with
  | «open» =>
    show (h.openProtocol proto index).channels = h.channels
    unfold NotificationsHandler.openProtocol
    split
    · split <;> rfl
    · split <;> rfl
    · rfl
    · rfl
  | close =>
    show (h.closeProtocol proto index).channels = h.channels
    unfold NotificationsHandler.closeProtocol
    cases proto.state <;> rfl
  | inbound substream =>
    show (h.negotiatedInbound proto index substream).channels = h.channels
    unfold NotificationsHandler.negotiatedInbound
    split
    · rfl
    · rfl
    · split <;> rfl
    · split <;> rfl
  | outbound opened =>
    show (h.negotiatedOutbound proto index opened).channels = _
    unfold NotificationsHandler.negotiatedOutbound
    cases proto.state <;> rfl
  | dialError =>
    show (h.dialUpgradeError proto index).channels = h.channels
    unfold NotificationsHandler.dialUpgradeError
    cases proto.state <;> rfl

theorem callback_channels {r r' : HandlerRun PeerId σ} {l : HandlerTurn σ ω} {callback : Callback σ} {index : Nat}
    {proto : ProtocolDetails σ} (made : l.callback = some (callback, index)) (step : r.turn transport l = some r')
    (at_index : r.handler.protocols[index]? = some proto) :
    r'.handler.channels = r.handler.channels + (callback.opens proto.state).toNat := by
  obtain ⟨_, found, rfl, -⟩ := callback_made made step
  cases at_index.symm.trans found
  exact called_channels r.handler proto index callback

/-- A turn keeps the ledger; a protocol open behind it was open before it, with
the same channel, or opened with a new one. -/
theorem turn_ledger (fused : transport.Fused Broken) {l : HandlerTurn σ ω}
    (ledger : Ledger Broken r.handler.channels notes r.handler.protocols) (step : r.turn transport l = some r') :
    Ledger Broken r'.handler.channels (notes ++ turnNotes transport r l r') r'.handler.protocols ∧
      ∀ i channel, Holds r'.handler.protocols i channel → Holds r.handler.protocols i channel ∨
        ((∀ c, ¬ Holds r.handler.protocols i c) ∧ channel = r.handler.channels + 1) := by
  cases made : l.callback with
  | some pair =>
    obtain ⟨callback, index⟩ := pair
    obtain ⟨proto, state, added, effect, applied, -⟩ := callback_turn made step
    have counted := callback_channels made step applied.found
    have silent : turnNotes transport r l r' = [] := by
      cases l with
      | poll w => cases made
      | send channel message => cases made
      | _ => rfl
    rw [silent, List.append_nil, applied.protocols, counted]
    rcases effect_keeps_receiver effect with ⟨still, keeps⟩ | ⟨opens, inbound, outbound, closed, rfl⟩
    · rw [still]
      obtain ⟨kept, before⟩ := ledger.visit_quiet applied.found state fun recv inbound' outbound' opened => by
        obtain ⟨inbound, before⟩ := keeps recv inbound' outbound' opened
        exact ⟨inbound, outbound', before, fun out' held => ⟨out', held, id⟩⟩
      exact ⟨kept, fun i channel held => .inl (before i channel held)⟩
    · rw [opens]
      obtain ⟨kept, before⟩ := ledger.opens applied.found inbound (some outbound)
      refine ⟨kept, fun i channel held => ?_⟩
      rcases before i channel held with ⟨rfl, rfl⟩ | earlier
      · refine .inr ⟨?_, rfl⟩
        rintro c ⟨entry, at_index, here⟩
        cases applied.found.symm.trans at_index
        rw [closed] at here
        cases here
      · exact .inl earlier
  | none =>
    cases l with
    | poll w =>
      have taken : r' = r.take (r.handler.poll transport w).2.1 (r.handler.poll transport w).1 :=
        (Option.some.inj step).symm
      have handler : r'.handler = (r.handler.poll transport w).2.1 := by
        rw [taken]
        unfold HandlerRun.take
        split <;> rfl
      obtain ⟨channels, polled, before⟩ := ledger.poll fused w
      rw [handler, channels]
      exact ⟨polled, fun i channel held => .inl (before i channel held)⟩
    | send channel message =>
      cases step
      exact ⟨ledger.put channel message, fun i c held => .inl (holds_delivered held)⟩
    | command message => cases message <;> cases made
    | inbound protocol => cases made
    | outbound opened info => cases made
    | dialError info => cases made

/-- In every run, what the sink accepts from a channel is, in order and once
each, the first of what the user put into it. A round takes a message out
exactly when the sink was not pending, so none finds the channel empty behind
its peek. What is put in is taken out or waits, and what is taken out is
accepted until the sink breaks. Each period of each protocol has a channel of
its own. -/
theorem messages_in_order (fused : transport.Fused Broken) {peer : PeerId} {endpoint : ConnectedPoint PeerId}
    {data : ProtocolsData} {turns : List (HandlerTurn σ ω)} {t : HandlerRun PeerId σ}
    (run : (handlerRuns transport peer endpoint data).replay turns = some t) {notes : List Note}
    (made : (handlerRuns transport peer endpoint data).trace (turnNotes transport) turns = notes) :
    (∀ channel, accepts channel notes <+: puts channel notes) ∧
    (∀ note ∈ notes, note.Ready) ∧
    (∀ (i : Nat) (proto : ProtocolDetails σ), t.handler.protocols[i]? = some proto →
      ∀ recv inbound outbound, proto.state = .opened recv inbound outbound →
        puts recv.channel notes = takes recv.channel notes ++ recv.messages ∧
        ∀ out, outbound = some out →
          accepts recv.channel notes = takes recv.channel notes ∨ Broken out.socket) ∧
    (∀ i j channel, Holds t.handler.protocols i channel → Holds t.handler.protocols j channel → i = j) ∧
    ∀ l t', t.turn transport l = some t' → ∀ i channel, Holds t'.handler.protocols i channel →
      Holds t.handler.protocols i channel ∨
        ((∀ c, ¬ Holds t.handler.protocols i c) ∧ ∀ note ∈ notes, note.channel ≠ channel) := by
  subst made
  have closed : ∀ i channel,
      ¬ Holds (NotificationsHandler.new peer endpoint data : NotificationsHandler PeerId σ).protocols i channel := by
    rintro (_ | _ | i) channel ⟨proto, found, held⟩
    · cases found
      cases held
    · cases found
      cases held
    · cases found
  have start : Ledger Broken 0 []
      (NotificationsHandler.new peer endpoint data : NotificationsHandler PeerId σ).protocols := by
    constructor
    case flow =>
      intro i proto found recv inbound outbound opened
      refine absurd ⟨proto, found, ?_⟩ (closed i recv.channel)
      rw [opened]
      rfl
    case apart => exact fun i j channel first _ => absurd first (closed i channel)
    case created => exact fun i channel held => absurd held (closed i channel)
    case noted => exact nofun
    case ready => exact nofun
    case inOrder => exact fun channel => List.prefix_rfl
  have ledger : Ledger Broken t.handler.channels
      ((handlerRuns transport peer endpoint data).trace (turnNotes transport) turns) t.handler.protocols :=
    Machine.trace_invariant
      (I := fun notes (r : HandlerRun PeerId σ) => Ledger Broken r.handler.channels notes r.handler.protocols)
      (fun past s l s' held step => (turn_ledger fused held step).1) start run
  refine ⟨ledger.inOrder, ledger.ready, ?_, ledger.apart, ?_⟩
  · intro i proto found recv inbound outbound opened
    have flow := ledger.flow i proto found recv inbound outbound opened
    exact ⟨flow.waiting, flow.whole⟩
  · intro l t' step i channel held
    rcases (turn_ledger fused ledger step).2 i channel held with earlier | ⟨open_now, rfl⟩
    · exact .inl earlier
    · refine .inr ⟨open_now, fun note member same => ?_⟩
      have within := ledger.noted note member
      omega

/-- A protocol is opened, and one message goes through. -/
def delivery : List (HandlerTurn Unit Bool) :=
  [.command (.open 0), .poll true, .outbound ⟨[4], ⟨()⟩⟩ 0, .poll true, .send 1 [9], .poll true]

def deliveryNotes : List Note := [.put 1 [9], .round 1 (.ready (.ok ())) (some ([9], .ok ()))]

theorem delivery_in_order : ∃ t : HandlerRun Nat Unit,
    (handlerRuns .flushing 7 (.listener [] []) .zero).replay delivery = some t ∧
    accepts 1 deliveryNotes = [[9]] ∧
    (∀ channel, accepts channel deliveryNotes <+: puts channel deliveryNotes) ∧
    (∀ note ∈ deliveryNotes, note.Ready) ∧
    (∀ (i : Nat) (proto : ProtocolDetails Unit), t.handler.protocols[i]? = some proto →
      ∀ recv inbound outbound, proto.state = .opened recv inbound outbound →
        puts recv.channel deliveryNotes = takes recv.channel deliveryNotes ++ recv.messages ∧
        ∀ out, outbound = some out →
          accepts recv.channel deliveryNotes = takes recv.channel deliveryNotes ∨ False) ∧
    (∀ i j channel, Holds t.handler.protocols i channel → Holds t.handler.protocols j channel → i = j) ∧
    ∀ l t', t.turn .flushing l = some t' → ∀ i channel, Holds t'.handler.protocols i channel →
      Holds t.handler.protocols i channel ∨
        ((∀ c, ¬ Holds t.handler.protocols i c) ∧ ∀ note ∈ deliveryNotes, note.channel ≠ channel) := by
  have possible : ((handlerRuns .flushing (7 : Nat) (.listener [] []) .zero).replay delivery).isSome = true := by
    rfl
  have noted : (handlerRuns .flushing (7 : Nat) (.listener [] []) .zero).trace (turnNotes .flushing) delivery =
      deliveryNotes := by
    rfl
  have fused : Transport.flushing.Fused fun _ => False :=
    ⟨fun _ _ _ _ refused => (by cases refused), fun _ _ _ => False.elim, fun _ _ _ => id, fun _ _ => id, fun _ _ => id⟩
  obtain ⟨t, run⟩ := Option.isSome_iff_exists.mp possible
  exact ⟨t, run, rfl, messages_in_order fused run noted⟩

end Runs
end Subp2pExplorer.Notifications
