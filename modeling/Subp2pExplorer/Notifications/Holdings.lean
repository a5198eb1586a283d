import Subp2pExplorer.Notifications.Traffic

/-! What a side holds. The bytes an end has sent say how far it has come: none
before its side opened the protocol with the link in hand, and from then on the
one frame of its handshake. -/
namespace Subp2pExplorer.Notifications
open Lib

section Histories
variable {history : List Entry} {index link : Nat} {held : Option Nat} {entry : Entry}

/-- Opened, and not closed since. -/
def Wanted (history : List Entry) (index : Nat) : Prop :=
  ∃ before held after, history = before ++ .opened index held :: after ∧ .closed index ∉ after

theorem wanted_opened : Wanted (history ++ [.opened index held]) index := ⟨history, held, [], rfl, nofun⟩

theorem wanted_later (wanted : Wanted history index) (other : entry ≠ .closed index) :
    Wanted (history ++ [entry]) index := by
  obtain ⟨before, held, after, rfl, open_yet⟩ := wanted
  refine ⟨before, held, after ++ [entry], by simp, fun closed => ?_⟩
  rcases List.mem_append.mp closed with earlier | last
  · exact open_yet earlier
  · exact other (List.mem_singleton.mp last).symm

theorem agreed_later (agreed : Agreed history index link) : Agreed (history ++ [entry]) index link := by
  rcases agreed with held | ⟨before, held, between, after, open_yet, rfl⟩
  · exact .inl (List.mem_append_left _ held)
  · exact .inr ⟨before, held, between, after ++ [entry], open_yet, by simp⟩

theorem agreed_held : Agreed (history ++ [.opened index (some link)]) index link :=
  .inl (List.mem_append_right _ (List.mem_singleton.mpr rfl))

theorem agreed_received (wanted : Wanted history index) : Agreed (history ++ [.received index link]) index link := by
  obtain ⟨before, held, after, rfl, open_yet⟩ := wanted
  exact .inr ⟨before, held, after, [], open_yet, by simp⟩

end Histories

/-- What a protocol is configured with. -/
def ProtocolDetails.settings {σ : Type} (proto : ProtocolDetails σ) : String × Bytes × HandshakeInbound :=
  (proto.name, proto.handshake, proto.upgrade)

def configured (data : ProtocolsData) : List (String × Bytes × HandshakeInbound) :=
  (NotificationsHandler.new () (.listener [] []) data : NotificationsHandler Unit Unit).protocols.map
    ProtocolDetails.settings

section Invariants
variable (varint : Varint) (data : Side → ProtocolsData) (links : List Link) (wires : Wires) (history : List Entry)
  (side : Side) (index : Nat)

/-- An inbound substream of a protocol and what its end has sent. -/
structure InboundHeld (handshake : Bytes) (stream : HandshakeInboundSubstream Endpoint) : Prop where
  own : stream.socket.side = side
  link : ∃ link, links[stream.socket.link]? = some link ∧ link.opener = side.other ∧ link.accepted = some index
  progress : match stream.state with
    | .waiting => wires stream.socket = []
    | .sending queued => wires stream.socket = [] ∧ queued = handshake ∧ Agreed history index stream.socket.link
    | _ => True

/-- The state of a protocol of a side with the substreams it holds. -/
structure Held (handshake : Bytes) (state : State Endpoint) : Prop where
  inbound : ∀ stream, state.inbound = some stream → InboundHeld links wires history side index handshake stream
  outbound : ∀ out, state.outbound = some out →
    out.socket.side = side ∧ ∃ link, links[out.socket.link]? = some link ∧ link.opener = side
  wanted : state.Wants → Wanted history index

/-- What the side that was handed a link has sent on it. -/
def AnsweredSoFar (histories : Side → List Entry) (id : Nat) (link : Link) : Prop :=
  wires ⟨id, link.opener.other⟩ = [] ∨
    ∃ index name handshake upgrade, link.accepted = some index ∧
      (configured (data link.opener.other))[index]? = some (name, handshake, upgrade) ∧
      wires ⟨id, link.opener.other⟩ = varint.frame handshake ∧ Agreed (histories link.opener.other) index id

/-- What polling one side keeps. -/
structure Kept {PeerId : Type} (s : Joint PeerId) (protocols : List (ProtocolDetails Endpoint)) (wires : Wires) :
    Prop where
  settings : protocols.map ProtocolDetails.settings = configured (data side)
  held : ∀ index proto, protocols[index]? = some proto →
    Held s.links wires (s.history side) side index proto.handshake proto.state
  others : ∀ e, e.side ≠ side → wires e = s.wires e
  answered : ∀ id link, s.links[id]? = some link → AnsweredSoFar varint data wires s.history id link

end Invariants

section Preservation
variable {PeerId W : Type} {varint : Varint} {channel : Channel varint W} {data : Side → ProtocolsData}
  {s : Joint PeerId} {side : Side} {protocols : List (ProtocolDetails Endpoint)} {proto : ProtocolDetails Endpoint}
  {wires wires' : Wires} {k index : Nat} {state : State Endpoint} {links links' : List Link}
  {history history' : List Entry} {handshake : Bytes} {stream stream' : HandshakeInboundSubstream Endpoint}

/-- An end we opened is not the end of a link we were handed. -/
theorem ends_apart {e : Endpoint} (held : InboundHeld links wires history side index handshake stream)
    (opened : ∃ link, links[e.link]? = some link ∧ link.opener = side) : stream.socket ≠ e := by
  rintro rfl
  obtain ⟨link, found, opener, _⟩ := held.link
  obtain ⟨link', found', opener'⟩ := opened
  obtain rfl := Option.some.inj (found.symm.trans found')
  exact side.other_ne (opener.symm.trans opener')

/-- A link was handed to one protocol only. -/
theorem handed_apart {handshake' : Bytes} {i j : Nat} (apart : i ≠ j)
    (held : InboundHeld links wires history side i handshake stream)
    (held' : InboundHeld links wires history side j handshake' stream') : stream.socket ≠ stream'.socket := by
  intro same
  obtain ⟨link, found, _, accepted⟩ := held.link
  obtain ⟨link', found', _, accepted'⟩ := held'.link
  rw [same] at found
  obtain rfl := Option.some.inj (found.symm.trans found')
  exact apart (Option.some.inj (accepted.symm.trans accepted'))

theorem inbound_held_wires (held : InboundHeld links wires history side index handshake stream)
    (same : wires' stream.socket = wires stream.socket) :
    InboundHeld links wires' history side index handshake stream := by
  refine ⟨held.own, held.link, ?_⟩
  have progress := held.progress
  revert progress
  cases stream.state with
  | waiting => exact same.trans
  | sending queued => exact And.imp_left same.trans
  | _ => exact id

theorem past_held (held : InboundHeld links wires history side index handshake stream) (socket : stream'.socket = stream.socket)
    (past : stream'.state.Past) : InboundHeld links wires' history side index handshake stream' := by
  refine ⟨socket ▸ held.own, socket ▸ held.link, ?_⟩
  revert past
  cases stream'.state with
  | waiting => exact False.elim
  | sending queued => exact False.elim
  | _ => exact id

theorem moved_held (held : InboundHeld links wires history side index handshake stream) (socket : stream'.socket = stream.socket)
    (still : stream'.state = stream.state ∨ stream'.state.Past) :
    InboundHeld links wires history side index handshake stream' := by
  rcases still with same | past
  · obtain ⟨socket', state', name⟩ := stream'
    obtain rfl : socket' = stream.socket := socket
    obtain rfl : state' = stream.state := same
    exact ⟨held.own, held.link, held.progress⟩
  · exact past_held held socket past

theorem settings_set {σ : Type} {protocols : List (ProtocolDetails σ)} {proto : ProtocolDetails σ}
    (found : protocols[k]? = some proto) (state : State σ) :
    (protocols.set k { proto with state := state }).map ProtocolDetails.settings =
      protocols.map ProtocolDetails.settings := by
  obtain ⟨within, rfl⟩ := List.getElem?_eq_some_iff.mp found
  rw [List.map_set]
  conv_rhs => rw [← List.set_getElem_self within, List.map_set]
  rfl

/-- A protocol whose ends did not change. -/
theorem held_wires (held : Held links wires history side index handshake state)
    (same : ∀ stream, state.inbound = some stream → wires' stream.socket = wires stream.socket) :
    Held links wires' history side index handshake state where
  inbound stream found := inbound_held_wires (held.inbound stream found) (same stream found)
  outbound := held.outbound
  wanted := held.wanted

theorem answered_wires {histories : Side → List Entry} {id : Nat} {link : Link}
    (answered : AnsweredSoFar varint data wires histories id link)
    (same : wires' ⟨id, link.opener.other⟩ = wires ⟨id, link.opener.other⟩) :
    AnsweredSoFar varint data wires' histories id link := by
  unfold AnsweredSoFar
  rwa [same]

/-- One protocol got a new state: the others keep what their ends have sent. -/
theorem set_held (found : protocols[k]? = some proto)
    (held : ∀ index proto, protocols[index]? = some proto →
      Held links wires' history side index proto.handshake proto.state ∨ index = k)
    (set : Held links wires' history side k proto.handshake state) :
    ∀ index other, (protocols.set k { proto with state := state })[index]? = some other →
      Held links wires' history side index other.handshake other.state := by
  intro index other at_index
  rcases set_entry found at_index with ⟨rfl, rfl⟩ | ⟨apart, before⟩
  · exact set
  · exact (held index other before).resolve_right apart

theorem visited_kept (kept : Kept varint data side s protocols wires) (found : protocols[k]? = some proto)
    (visited : Visited varint proto.state state wires wires') :
    Kept varint data side s (protocols.set k { proto with state := state }) wires' := by
  have before := kept.held k proto found
  have settings := (settings_set found state).trans kept.settings
  have outbound : ∀ out, state.outbound = some out →
      out.socket.side = side ∧ ∃ link, s.links[out.socket.link]? = some link ∧ link.opener = side := by
    intro out opened
    obtain ⟨out', held, socket⟩ := visited.outbound out opened
    rw [socket]
    exact before.outbound out' held
  have wanted : state.Wants → Wanted (s.history side) k := fun wants => before.wanted (visited.wants wants)
  cases visited.traffic with
  | kept same inbound =>
    subst same
    refine ⟨settings, set_held found (fun index other at_index => .inl (kept.held index other at_index)) ?_,
      kept.others, kept.answered⟩
    exact ⟨fun stream held => before.inbound stream (inbound ▸ held), outbound, wanted⟩
  | sent out opened own inbound =>
    obtain ⟨out_side, link, out_link, opener⟩ := before.outbound out opened
    have untouched : ∀ index other, protocols[index]? = some other →
        Held s.links wires' (s.history side) side index other.handshake other.state := fun index other at_index =>
      held_wires (kept.held index other at_index) fun stream held =>
        own _ (ends_apart ((kept.held index other at_index).inbound stream held) ⟨link, out_link, opener⟩)
    have after := untouched k proto found
    refine ⟨settings, set_held found (fun index other at_index => .inl (untouched index other at_index))
      ⟨fun stream held => after.inbound stream (inbound ▸ held), outbound, wanted⟩, ?_, ?_⟩
    · intro e apart
      exact (own e (by rintro rfl; exact apart out_side)).trans (kept.others e apart)
    · intro id link' at_id
      apply answered_wires (kept.answered id link' at_id) (own _ _)
      intro same
      rw [← same] at out_link out_side
      obtain rfl := Option.some.inj (out_link.symm.trans at_id)
      exact link.opener.other_ne (out_side.trans opener.symm)
  | polled stream stream' held moved left =>
    have inbound := before.inbound stream held
    have own : ∀ stream'', state.inbound = some stream'' → stream'' = stream' := by
      rintro stream'' now
      rcases left with left | left
      · exact (Option.some.inj (left.symm.trans now)).symm
      · cases left.symm.trans now
    rcases moved.sent with ⟨same, still⟩ | ⟨handshake, sending, past, sent⟩
    · subst same
      refine ⟨settings, set_held found (fun index other at_index => .inl (kept.held index other at_index))
        ⟨fun stream'' now => ?_, outbound, wanted⟩, kept.others, kept.answered⟩
      obtain rfl := own stream'' now
      exact moved_held inbound moved.socket still
    · have progress := inbound.progress
      rw [sending] at progress
      obtain ⟨nothing, rfl, agreed⟩ := progress
      refine ⟨settings, set_held found (fun index other at_index => ?_)
        ⟨fun stream'' now => ?_, outbound, wanted⟩, fun e apart => ?_, fun id link at_id => ?_⟩
      · by_cases apart : index = k
        · exact .inr apart
        · refine .inl (held_wires (kept.held index other at_index) fun other_stream other_held => ?_)
          rw [sent, Function.update_of_ne]
          exact handed_apart apart ((kept.held index other at_index).inbound other_stream other_held) inbound
      · obtain rfl := own stream'' now
        exact past_held inbound moved.socket past
      · rw [sent, Function.update_of_ne]
        · exact kept.others e apart
        · rintro rfl
          exact apart inbound.own
      · by_cases this_end : (⟨id, link.opener.other⟩ : Endpoint) = stream.socket
        · obtain ⟨link', found', opener, accepted⟩ := inbound.link
          rw [← this_end] at found'
          cases found'.symm.trans at_id
          have at_side : link.opener.other = side := by rw [opener, Side.other_other]
          refine .inr ⟨k, proto.name, proto.handshake, proto.upgrade, accepted, ?_, ?_, ?_⟩
          · rw [at_side, ← kept.settings, List.getElem?_map, found]
            rfl
          · rw [this_end, sent, Function.update_self, nothing, List.nil_append]
          · rw [at_side]
            rwa [← this_end] at agreed
        · apply answered_wires (kept.answered id link at_id)
          rw [sent, Function.update_of_ne this_end]

/-- A poll keeps what each of its visits keeps; it returns what was pending, or
else no request. -/
theorem poll_kept (kept : Kept varint data side s (s.runs side).handler.protocols s.wires) (weather : W)
    {result : Poll (HandlerEvent PeerId)} {h : NotificationsHandler PeerId Endpoint} {w : Wires × W}
    (polled : (s.runs side).handler.poll channel.transport (s.wires, weather) = (result, h, w)) :
    Kept varint data side s h.protocols w.1 ∧
      ((∃ event, (s.runs side).handler.pendingEvents = event :: h.pendingEvents ∧ result = .ready event) ∨
        h.pendingEvents = [] ∧ ∀ request info, result ≠ .ready (.outboundSubstreamRequest request info)) := by
  have keeps : PollKeeps PeerId channel.transport fun protocols w => Kept varint data side s protocols w.1 :=
    { send := fun _ _ _ _ _ _ kept found visited => visited_kept kept found (send_state_visited visited)
      flush := fun _ _ _ _ _ _ kept found visited => visited_kept kept found (flush_state_visited visited)
      inbound := fun _ _ _ _ _ _ kept found visited => visited_kept kept found (inbound_state_visited visited) }
  cases pending : (s.runs side).handler.pendingEvents with
  | cons event rest =>
    unfold NotificationsHandler.poll at polled
    rw [pending] at polled
    cases polled
    exact ⟨kept, .inl ⟨event, rfl, rfl⟩⟩
  | nil =>
    obtain ⟨result', protocols', w', polled', outcome⟩ := @poll_keeps _ _ _ _ _ keeps _ (s.wires, weather) pending kept
    cases polled.symm.trans polled'
    rcases outcome with ⟨rfl, kept⟩ | ⟨event, k, proto, before, w₀, state, rfl, kept, found, handed, rfl⟩
    · exact ⟨kept, .inr ⟨pending, nofun⟩⟩
    · refine ⟨visited_kept kept found ?_, .inr ⟨pending, nofun⟩⟩
      rcases handed with flushed | received
      · exact flush_state_visited flushed
      · exact inbound_state_visited received

/-- A link as it was, but for what it was accepted for and that it was answered. -/
structure Updated (link link' : Link) : Prop where
  opener : link'.opener = link.opener
  request : link'.request = link.request
  info : link'.info = link.info
  accepted : ∀ index, link.accepted = some index → link'.accepted = some index

/-- Every link is still there. -/
def Continued (links links' : List Link) : Prop :=
  ∀ (id : Nat) link, links[id]? = some link → ∃ link', links'[id]? = some link' ∧ Updated link link'

/-- The same links, further on. -/
structure Grown (links links' : List Link) : Prop where
  forth : Continued links links'
  back : ∀ (id : Nat) link', links'[id]? = some link' → ∃ link, links[id]? = some link ∧ Updated link link'

theorem Updated.rfl {link : Link} : Updated link link := ⟨by rfl, by rfl, by rfl, fun _ => id⟩

theorem Grown.rfl : Grown links links :=
  ⟨fun _ link found => ⟨link, found, .rfl⟩, fun _ link found => ⟨link, found, .rfl⟩⟩

theorem grown_set {id : Nat} {link link' : Link} (found : links[id]? = some link)
    (updated : Updated link link') : Grown links (links.set id link') := by
  obtain ⟨within, _⟩ := List.getElem?_eq_some_iff.mp found
  refine ⟨fun i other at_i => ?_, fun i other at_i => ?_⟩
  · by_cases same : i = id
    · subst same
      cases found.symm.trans at_i
      exact ⟨link', List.getElem?_set_self within, updated⟩
    · exact ⟨other, (List.getElem?_set_ne (Ne.symm same)).trans at_i, .rfl⟩
  · rcases set_entry found at_i with ⟨rfl, rfl⟩ | ⟨_, before⟩
    · exact ⟨link, found, updated⟩
    · exact ⟨other, before, .rfl⟩

theorem inbound_held_continued
    (held : InboundHeld links wires history side index handshake stream) (continued : Continued links links')
    (agreed : ∀ id, Agreed history index id → Agreed history' index id) :
    InboundHeld links' wires history' side index handshake stream := by
  obtain ⟨link, at_link, opener, accepted⟩ := held.link
  obtain ⟨link', at_link', updated⟩ := continued _ link at_link
  refine ⟨held.own, ⟨link', at_link', updated.opener.trans opener, updated.accepted _ accepted⟩, ?_⟩
  have progress := held.progress
  revert progress
  cases stream.state with
  | waiting => exact id
  | sending queued => exact fun ⟨nothing, same, agrees⟩ => ⟨nothing, same, agreed _ agrees⟩
  | _ => exact id

/-- A protocol of a side when links and history have gone on. -/
theorem held_continued
    (held : Held links wires history side index handshake state) (continued : Continued links links')
    (agreed : ∀ id, Agreed history index id → Agreed history' index id)
    (wanted : state.Wants → Wanted history index → Wanted history' index) :
    Held links' wires history' side index handshake state where
  inbound stream found := inbound_held_continued (held.inbound stream found) continued agreed
  outbound out found := by
    obtain ⟨own, link, at_link, opener⟩ := held.outbound out found
    obtain ⟨link', at_link', updated⟩ := continued _ link at_link
    exact ⟨own, link', at_link', updated.opener.trans opener⟩
  wanted wants := wanted wants (held.wanted wants)

theorem answered_grown {histories histories' : Side → List Entry} (grown : Grown links links')
    (agreed : ∀ side index id, Agreed (histories side) index id → Agreed (histories' side) index id)
    (answered : ∀ id link, links[id]? = some link → AnsweredSoFar varint data wires histories id link) :
    ∀ id link, links'[id]? = some link → AnsweredSoFar varint data wires histories' id link := by
  intro id link' at_id
  obtain ⟨link, before, updated⟩ := grown.back id link' at_id
  have opener := updated.opener
  rcases answered id link before with nothing | ⟨index, name, handshake, upgrade, accepted, setting, sent, agrees⟩
  · exact .inl (opener ▸ nothing)
  · refine .inr ⟨index, name, handshake, upgrade, updated.accepted _ accepted, ?_⟩
    rw [opener]
    exact ⟨setting, sent, agreed _ _ _ agrees⟩

end Preservation
end Subp2pExplorer.Notifications
