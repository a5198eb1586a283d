import Subp2pExplorer.Notifications.Framed
import Subp2pExplorer.Notifications.Holdings

/-! When a handshake of ours completes, the other side has opened the protocol,
and the handshake is the one it is configured with: every step of either side
keeps what both hold. -/
namespace Subp2pExplorer.Notifications
open Lib

section Preservation
variable {PeerId W : Type} {varint : Varint} {channel : Channel varint W} {data : Side → ProtocolsData}
  {s : Joint PeerId} {side : Side} {protocols : List (ProtocolDetails Endpoint)} {proto : ProtocolDetails Endpoint}
  {wires wires' : Wires} {k : Nat} {state : State Endpoint}

section Callbacks
variable {h : NotificationsHandler PeerId Endpoint} {links links' : List Link} {history : List Entry}
  {before after : State Endpoint} {added : List (HandlerEvent PeerId)} {handshake : Bytes}

/-- A closed protocol holds nothing. -/
theorem closed_held (pendingOpening : Bool) : Held links wires history side k handshake (.closed pendingOpening) :=
  ⟨nofun, nofun, False.elim⟩

/-- A substream that is given the handshake of its protocol. -/
theorem given_held {stream : HandshakeInboundSubstream Endpoint} {entry : Entry}
    (held : InboundHeld links wires history side k handshake stream)
    (agrees : Agreed (history ++ [entry]) k stream.socket.link) :
    InboundHeld links wires (history ++ [entry]) side k handshake (stream.setHandshake handshake) := by
  have grown := inbound_held_continued held Grown.rfl.forth fun id => @agreed_later history k id entry
  unfold HandshakeInboundSubstream.setHandshake
  split
  · rename_i waiting
    have nothing := held.progress
    rw [waiting] at nothing
    exact ⟨grown.own, grown.link, nothing, rfl, agrees⟩
  · exact grown

theorem open_held (effect : Effect h proto k .open before after added)
    (held : Held links wires history side k proto.handshake before) :
    Held links wires (history ++ [.opened k (before.inbound.map fun inbound => inbound.socket.link)]) side k
      proto.handshake after := by
  have still := held_continued held Grown.rfl.forth
    (fun id => @agreed_later history k id (.opened k (before.inbound.map fun inbound => inbound.socket.link)))
    fun _ _ => wanted_opened
  cases effect with
  | openClosed => exact ⟨nofun, nofun, fun _ => wanted_opened⟩
  | openPending => exact ⟨nofun, nofun, fun _ => wanted_opened⟩
  | openRemote =>
    have given := given_held (held.inbound _ rfl) agreed_held
    exact ⟨fun stream found => by cases found; exact given, nofun, fun _ => wanted_opened⟩
  | openRemotePending =>
    have given := given_held (held.inbound _ rfl) agreed_held
    exact ⟨fun stream found => by cases found; exact given, nofun, fun _ => wanted_opened⟩
  | openOpening => exact still
  | openOpened => exact still

theorem close_held (effect : Effect h proto k .close before after added) :
    Held links wires history side k proto.handshake after := by
  cases effect <;> exact closed_held _

/-- A link that is handed over, fresh from its upgrade. -/
theorem inbound_held {substream : HandshakeInboundSubstream Endpoint} (grown : Grown links links')
    (effect : Effect h proto k (.inbound substream) before after added)
    (held : Held links wires history side k proto.handshake before) (waiting : substream.state = .waiting)
    (own : substream.socket.side = side) (nothing : wires substream.socket = [])
    (accepted : ∃ link, links'[substream.socket.link]? = some link ∧ link.opener = side.other ∧
      link.accepted = some k) :
    Held links' wires (history ++ [.received k substream.socket.link]) side k proto.handshake after := by
  have still := held_continued held grown.forth (fun id => @agreed_later history k id (.received k substream.socket.link))
    fun _ wanted => wanted_later wanted nofun
  have fresh : ∀ history, InboundHeld links' wires history side k proto.handshake substream := fun history =>
    ⟨own, accepted, by rw [waiting]; exact nothing⟩
  have given : before.Wants → InboundHeld links' wires (history ++ [.received k substream.socket.link]) side k
      proto.handshake (substream.setHandshake proto.handshake) := fun wants =>
    given_held (fresh history) (agreed_received (held.wanted wants))
  cases effect with
  | inboundClosed => exact ⟨fun stream found => by cases found; exact fresh _, nofun, False.elim⟩
  | inboundRemote => exact still
  | inboundOpeningHeld => exact still
  | inboundOpening => exact ⟨fun stream found => by cases found; exact given trivial, nofun, still.wanted⟩
  | inboundOpenedHeld => exact still
  | inboundOpened => exact ⟨fun stream found => by cases found; exact given trivial, still.outbound, still.wanted⟩

/-- A link of our own that is answered. -/
theorem outbound_held {opened : HandshakeOutboundOpen Endpoint} (grown : Grown links links')
    (effect : Effect h proto k (.outbound opened) before after added)
    (held : Held links wires history side k proto.handshake before)
    (own : opened.substream.socket.side = side)
    (ours : ∃ link, links'[opened.substream.socket.link]? = some link ∧ link.opener = side) :
    Held links' wires history side k proto.handshake after := by
  have still := held_continued held grown.forth (fun _ => id) fun _ => id
  cases effect with
  | outboundClosed => exact closed_held _
  | outboundRemote => exact ⟨still.inbound, nofun, False.elim⟩
  | outboundOpening => exact ⟨still.inbound, fun out found => by cases found; exact ⟨own, ours⟩, still.wanted⟩
  | outboundOpened => exact still

theorem dial_error_held (grown : Grown links links') (effect : Effect h proto k .dialError before after added)
    (held : Held links wires history side k proto.handshake before) :
    Held links' wires history side k proto.handshake after := by
  have still := held_continued held grown.forth (fun _ => id) fun _ => id
  cases effect with
  | dialErrorClosed => exact closed_held _
  | dialErrorRemote => exact ⟨still.inbound, nofun, False.elim⟩
  | dialErrorOpening => exact closed_held _
  | dialErrorOpened => exact still

end Callbacks

/-- The name of a protocol. -/
def Named (data : ProtocolsData) (index : Nat) (name : String) : Prop :=
  ∃ handshake upgrade, (configured data)[index]? = some (name, handshake, upgrade)

variable (varint data) in
/-- What holds of the two sides at all times. -/
structure JointSound (s : Joint PeerId) : Prop where
  kept : ∀ side, Kept varint data side s (s.runs side).handler.protocols s.wires
  requests : ∀ side request info, .outboundSubstreamRequest request info ∈ (s.runs side).handler.pendingEvents →
    Named (data side) info request.name
  asked : ∀ (id : Nat) link, s.links[id]? = some link → Named (data link.opener) link.info link.request.name
  accepted : ∀ (id : Nat) link index, s.links[id]? = some link → link.accepted = some index →
    Named (data link.opener.other) index link.request.name

/-- A poll of one side. -/
theorem polled_sound {run : HandlerRun PeerId Endpoint} (sound : JointSound varint data s)
    (kept : Kept varint data side s run.handler.protocols wires)
    (pending : run.handler.pendingEvents ⊆ (s.runs side).handler.pendingEvents) :
    JointSound varint data { s.setRun side run with wires := wires } := by
  refine ⟨fun which => ?_, fun which request info member => ?_, sound.asked, sound.accepted⟩
  · rcases side.eq_or_other which with rfl | rfl
    · rw [Joint.run_own]
      exact ⟨kept.settings, kept.held, fun _ _ => rfl, kept.answered⟩
    · have other := sound.kept side.other
      rw [Joint.run_other]
      refine ⟨other.settings, fun index proto at_index => ?_, fun _ _ => rfl, kept.answered⟩
      refine held_wires (other.held index proto at_index) fun stream found => kept.others _ ?_
      rw [((other.held index proto at_index).inbound stream found).own]
      exact side.other_ne
  · rcases side.eq_or_other which with rfl | rfl
    · rw [Joint.run_own] at member
      exact sound.requests which request info (pending member)
    · rw [Joint.run_other] at member
      exact sound.requests _ request info member

/-- A link that a side asked for. -/
theorem open_link_sound {request : HandshakeOutbound} {info : Nat} (sound : JointSound varint data s)
    (named : Named (data side) info request.name) :
    JointSound varint data (s.openLink varint side request info) := by
  have old : ∀ (id : Nat) link, s.links[id]? = some link →
      (s.links ++ [⟨side, request, info, none, false⟩])[id]? = some link := fun id link at_id => by
    rw [List.getElem?_append_left (List.getElem?_eq_some_iff.mp at_id).1]
    exact at_id
  have unchanged : ∀ e : Endpoint, e.link < s.links.length →
      (s.openLink varint side request info).wires e = s.wires e := by
    intro e within
    have apart : ∀ which, e ≠ ⟨s.links.length, which⟩ := by
      rintro which rfl
      exact Nat.lt_irrefl _ within
    exact (Function.update_of_ne (apart _) _ _).trans (Function.update_of_ne (apart _) _ _)
  have new : ∀ (id : Nat) link, (s.openLink varint side request info).links[id]? = some link →
      s.links[id]? = some link ∨ id = s.links.length ∧ link = ⟨side, request, info, none, false⟩ := by
    intro id link at_id
    rcases Nat.lt_or_ge id s.links.length with within | beyond
    · exact .inl ((List.getElem?_append_left within).symm.trans at_id)
    · have found := (List.getElem?_append_right beyond).symm.trans at_id
      obtain ⟨only, same⟩ := List.getElem?_eq_some_iff.mp found
      have last : id - s.links.length = 0 := by simpa using only
      refine .inr ⟨by omega, ?_⟩
      simpa [last] using same.symm
  have continued : Continued s.links (s.openLink varint side request info).links :=
    fun id link at_id => ⟨link, old id link at_id, .rfl⟩
  refine ⟨fun which => ⟨(sound.kept which).settings, fun index proto at_index => ?_, fun _ _ => rfl, ?_⟩,
    sound.requests, fun id link at_id => ?_, fun id link index at_id accepted => ?_⟩
  · have held := (sound.kept which).held index proto at_index
    have later := held_continued held continued (fun _ => id) fun _ => id
    refine held_wires later fun stream found => unchanged _ ?_
    obtain ⟨link, at_link, _⟩ := (held.inbound stream found).link
    exact (List.getElem?_eq_some_iff.mp at_link).1
  · intro id link at_id
    rcases new id link at_id with before | ⟨rfl, rfl⟩
    · refine answered_wires ((sound.kept which).answered id link before) (unchanged _ ?_)
      exact (List.getElem?_eq_some_iff.mp before).1
    · exact .inl (Function.update_self _ _ _)
  · rcases new id link at_id with before | ⟨rfl, rfl⟩
    · exact sound.asked id link before
    · exact named
  · rcases new id link at_id with before | ⟨rfl, rfl⟩
    · exact sound.accepted id link index before accepted
    · cases accepted

/-- A callback of one side, with what it adds to the links and the history. -/
theorem callback_sound {run : HandlerRun PeerId Endpoint} {links : List Link} {history : Side → List Entry}
    {added : List (HandlerEvent PeerId)} (sound : JointSound varint data s)
    (applied : Applied (s.runs side).handler run.handler proto k state added) (grown : Grown s.links links)
    (others : history side.other = s.history side.other)
    (agreed : ∀ index id, Agreed (s.history side) index id → Agreed (history side) index id)
    (wanted : ∀ index, index ≠ k → Wanted (s.history side) index → Wanted (history side) index)
    (set : Held links s.wires (history side) side k proto.handshake state)
    (requested : ∀ request info, .outboundSubstreamRequest request info ∈ added → Named (data side) info request.name)
    (accepted : ∀ (id : Nat) link index, links[id]? = some link → link.accepted = some index →
      Named (data link.opener.other) index link.request.name) :
    JointSound varint data { s.setRun side run with links := links, history := history } := by
  have own := sound.kept side
  have other := sound.kept side.other
  have agrees : ∀ which index id, Agreed (s.history which) index id → Agreed (history which) index id := by
    intro which
    rcases side.eq_or_other which with rfl | rfl
    · exact agreed
    · rw [others]
      exact fun _ _ => id
  have answered := answered_grown grown agrees own.answered
  refine ⟨fun which => ?_, fun which request info member => ?_, fun id link at_id => ?_, accepted⟩
  · rcases side.eq_or_other which with rfl | rfl
    · rw [Joint.run_own, applied.protocols]
      refine ⟨(settings_set applied.found state).trans own.settings, ?_, fun _ _ => rfl, answered⟩
      refine set_held applied.found (fun index proto at_index => ?_) set
      by_cases same : index = k
      · exact .inr same
      · exact .inl (held_continued (own.held index proto at_index) grown.forth (agreed index) fun _ => wanted index same)
    · rw [Joint.run_other]
      refine ⟨other.settings, fun index proto at_index => ?_, fun _ _ => rfl, answered⟩
      have wanted_other : Wanted (s.history side.other) index → Wanted (history side.other) index := by
        rw [others]
        exact id
      exact held_continued (other.held index proto at_index) grown.forth (agrees _ index) fun _ => wanted_other
  · rcases side.eq_or_other which with rfl | rfl
    · rw [Joint.run_own, applied.pending] at member
      rcases List.mem_append.mp member with earlier | now
      · exact sound.requests which request info earlier
      · exact requested request info now
    · rw [Joint.run_other] at member
      exact sound.requests _ request info member
  · obtain ⟨link', before, updated⟩ := grown.back id link at_id
    rw [updated.opener, updated.info, updated.request]
    exact sound.asked id link' before

theorem new_configured {σ : Type} (peer : PeerId) (endpoint : ConnectedPoint PeerId) (data : ProtocolsData) :
    (NotificationsHandler.new peer endpoint data : NotificationsHandler PeerId σ).protocols.map
      ProtocolDetails.settings = configured data := rfl

/-- A protocol is configured for the name it is offered by. -/
theorem configured_upgrade {data : ProtocolsData} {index : Nat} {name : String} {handshake : Bytes}
    {upgrade : HandshakeInbound} (at_index : (configured data)[index]? = some (name, handshake, upgrade)) :
    upgrade.name = name := by
  rcases index with _ | _ | index
  · cases at_index
    rfl
  · cases at_index
    rfl
  · cases at_index

theorem start_sound (channel : Channel varint W) (peer : Side → PeerId) (endpoint : Side → ConnectedPoint PeerId) :
    JointSound varint data (jointRuns channel peer endpoint data).start := by
  refine ⟨fun side => ⟨new_configured _ _ _, fun index proto at_index => ?_, fun _ _ => rfl, nofun⟩, nofun, nofun,
    nofun⟩
  rcases index with _ | _ | index
  · cases at_index
    exact closed_held _
  · cases at_index
    exact closed_held _
  · cases at_index

/-- A message of the user touches no substream. -/
theorem user_send_kept {userChannel : Nat} {message : Bytes} {h : NotificationsHandler PeerId Endpoint}
    (kept : Kept varint data side s h.protocols wires) :
    Kept varint data side s (userSend userChannel message h).protocols wires := by
  refine ⟨?_, fun index proto at_index => ?_, kept.others, kept.answered⟩
  · rw [← kept.settings]
    exact List.map_map
  · rw [userSend, List.getElem?_map] at at_index
    obtain ⟨before, found, rfl⟩ := Option.map_eq_some_iff.mp at_index
    have held := kept.held index before found
    dsimp only
    split
    · rename_i opened
      rw [opened] at held
      exact ⟨held.inbound, held.outbound, held.wanted⟩
    · exact held

theorem applied_settings {h h' : NotificationsHandler PeerId Endpoint} {added : List (HandlerEvent PeerId)}
    (applied : Applied h h' proto k state added)
    (settings : h.protocols.map ProtocolDetails.settings = configured (data side)) :
    (configured (data side))[k]? = some proto.settings := by
  rw [← settings, List.getElem?_map, applied.found]
  rfl

/-- Only a command to open requests a substream, and under the configured name. -/
theorem effect_names {h : NotificationsHandler PeerId Endpoint} {callback : Callback Endpoint}
    {before after : State Endpoint} {added : List (HandlerEvent PeerId)}
    (effect : Effect h proto k callback before after added)
    (at_index : (configured (data side))[k]? = some proto.settings) :
    ∀ request info, .outboundSubstreamRequest request info ∈ added → Named (data side) info request.name := by
  intro request info member
  cases effect
  case openClosed | openRemote =>
    cases List.mem_singleton.mp member
    exact ⟨_, _, at_index⟩
  all_goals simp at member

/-- A callback that is remembered. -/
theorem recorded_sound {run : HandlerRun PeerId Endpoint} {links : List Link} {entry : Entry}
    {added : List (HandlerEvent PeerId)} (sound : JointSound varint data s)
    (applied : Applied (s.runs side).handler run.handler proto k state added) (grown : Grown s.links links)
    (wanted : ∀ index, index ≠ k → entry ≠ .closed index)
    (set : Held links s.wires (s.history side ++ [entry]) side k proto.handshake state)
    (requested : ∀ request info, .outboundSubstreamRequest request info ∈ added → Named (data side) info request.name)
    (accepted : ∀ (id : Nat) link index, links[id]? = some link → link.accepted = some index →
      Named (data link.opener.other) index link.request.name) :
    JointSound varint data ({ s.setRun side run with links := links }.record side entry) := by
  have own : Function.update s.history side (s.history side ++ [entry]) side = s.history side ++ [entry] :=
    Function.update_self _ _ _
  show JointSound varint data { s.setRun side run with
    links := links, history := Function.update s.history side (s.history side ++ [entry]) }
  refine callback_sound sound applied grown (Function.update_of_ne side.other_ne _ _) ?_ ?_ ?_ requested accepted
  · rw [own]
    exact fun index id => agreed_later
  · rw [own]
    exact fun index apart held => wanted_later held (wanted index apart)
  · rw [own]
    exact set

theorem command_sound {message : FromBehavior} {run : HandlerRun PeerId Endpoint} (sound : JointSound varint data s)
    (step : (s.runs side).turn channel.transport (.command message) = some run) :
    JointSound varint data ((s.setRun side run).record side (Joint.entryOf (s.runs side).handler message)) := by
  have kept := sound.kept side
  cases message with
  | «open» k =>
    obtain ⟨proto, state, added, effect, applied, _⟩ := callback_turn rfl step
    have entry : Joint.entryOf (s.runs side).handler (.open k) =
        .opened k (proto.state.inbound.map fun inbound => inbound.socket.link) := by
      simp only [Joint.entryOf, applied.found, Option.bind_some]
    rw [entry]
    exact recorded_sound sound applied .rfl (fun _ _ => nofun) (open_held effect (kept.held k proto applied.found))
      (effect_names effect (applied_settings applied kept.settings)) sound.accepted
  | close k =>
    obtain ⟨proto, state, added, effect, applied, _⟩ := callback_turn rfl step
    refine recorded_sound sound applied .rfl (fun index apart same => apart ?_) (close_held effect)
      (effect_names effect (applied_settings applied kept.settings)) sound.accepted
    cases same
    rfl

theorem poll_sound {weather : W} {s' : Joint PeerId} (sound : JointSound varint data s)
    (step : s.turn channel (.poll side weather) = some s') : JointSound varint data s' := by
  unfold Joint.turn at step
  rcases polled : (s.runs side).handler.poll channel.transport (s.wires, weather) with ⟨result, h, w⟩
  obtain ⟨kept, pending⟩ := poll_kept (sound.kept side) weather polled
  have taken : ((s.runs side).take h result).handler = h := by
    unfold HandlerRun.take
    split <;> rfl
  have within : h.pendingEvents ⊆ (s.runs side).handler.pendingEvents := by
    rcases pending with ⟨event, popped, _⟩ | ⟨empty, _⟩
    · rw [popped]
      exact List.subset_cons_self _ _
    · rw [empty]
      exact List.nil_subset _
  have after : JointSound varint data { s.setRun side ((s.runs side).take h result) with wires := w.1 } := by
    apply polled_sound sound
    · rw [taken]
      exact kept
    · rw [taken]
      exact within
  simp only [polled] at step
  split at step
  · rename_i request info
    cases step
    apply open_link_sound after
    rcases pending with ⟨event, popped, same⟩ | ⟨_, quiet⟩
    · cases same
      refine sound.requests side request info ?_
      rw [popped]
      exact List.mem_cons_self
    · exact absurd rfl (quiet request info)
  · cases step
    exact after

theorem accept_sound {id index : Nat} {pieces : List Bytes} {s' : Joint PeerId} (sound : JointSound varint data s)
    (step : s.turn channel (.accept side id index pieces) = some s') : JointSound varint data s' := by
  obtain ⟨link, at_id, step⟩ := Option.bind_eq_some_iff.mp step
  obtain ⟨proto, found, step⟩ := Option.bind_eq_some_iff.mp step
  obtain ⟨⟨opener, unaccepted, name, _⟩, step⟩ := Option.ite_none_right_eq_some.mp step
  obtain ⟨_, _, upgraded⟩ := @upgrade_inbound_reads _ varint (fun _ => (⟨id, side⟩ : Endpoint))
    ⟨pieces, [], none⟩ proto.upgrade link.request.name
  split at step
  · cases step
  · rename_i opened left ok
    obtain ⟨handshake, _, rfl⟩ := upgraded opened (by rw [ok])
    obtain ⟨run, turned, rfl⟩ := Option.map_eq_some_iff.mp step
    obtain ⟨proto', state, added, effect, applied, _⟩ := callback_turn rfl turned
    cases found.symm.trans applied.found
    have kept := sound.kept side
    have setting := applied_settings applied kept.settings
    have updated : Updated link { link with accepted := some index } :=
      ⟨rfl, rfl, rfl, fun index accepted => by rw [unaccepted] at accepted; cases accepted⟩
    have at_side : link.opener.other = side := by rw [opener, Side.other_other]
    have nothing : s.wires ⟨id, side⟩ = [] := by
      rcases kept.answered id link at_id with nothing | ⟨_, _, _, _, accepted, _⟩
      · rwa [at_side] at nothing
      · cases unaccepted.symm.trans accepted
    have within := (List.getElem?_eq_some_iff.mp at_id).1
    have now : (s.links.set id { link with accepted := some index })[id]? = some { link with accepted := some index } :=
      List.getElem?_set_self within
    have grown := grown_set at_id updated
    refine recorded_sound sound applied grown (fun _ _ => nofun)
      (inbound_held grown effect (kept.held index proto applied.found) rfl rfl nothing ⟨_, now, opener, rfl⟩)
      (effect_names effect setting) fun i other index' at_i accepted => ?_
    rcases set_entry at_id at_i with ⟨_, rfl⟩ | ⟨_, before⟩
    · cases accepted
      refine ⟨proto.handshake, proto.upgrade, ?_⟩
      show (configured (data link.opener.other))[index]? = some (link.request.name, _, _)
      rw [at_side, setting, ← name, configured_upgrade setting]
      rfl
    · exact sound.accepted i other index' before accepted

/-- A link that its opener is done with. -/
theorem answered_links {id : Nat} {link : Link} (sound : JointSound varint data s) (at_id : s.links[id]? = some link) :
    ∀ (i : Nat) other index, (s.links.set id { link with answered := true })[i]? = some other →
      other.accepted = some index → Named (data other.opener.other) index other.request.name := by
  intro i other index at_i accepted
  rcases set_entry at_id at_i with ⟨_, rfl⟩ | ⟨_, before⟩
  · exact sound.accepted id link index at_id accepted
  · exact sound.accepted i other index before accepted

theorem answered_grown_links {links : List Link} {id : Nat} {link : Link} (at_id : links[id]? = some link) :
    Grown links (links.set id { link with answered := true }) :=
  grown_set at_id ⟨rfl, rfl, rfl, fun _ accepted => accepted⟩

theorem answer_sound {id : Nat} {pieces : List Bytes} {s' : Joint PeerId} (sound : JointSound varint data s)
    (step : s.turn channel (.answer side id pieces) = some s') : JointSound varint data s' := by
  obtain ⟨link, at_id, step⟩ := Option.bind_eq_some_iff.mp step
  obtain ⟨⟨opener, _, _⟩, step⟩ := Option.ite_none_right_eq_some.mp step
  obtain ⟨_, _, upgraded⟩ := @upgrade_outbound_reads _ varint (fun _ => (⟨id, side⟩ : Endpoint))
    ⟨pieces, [], none⟩ link.request rfl
  split at step
  · cases step
  · rename_i opened left ok
    obtain ⟨handshake, _, rfl⟩ := upgraded opened (by rw [ok])
    obtain ⟨run, turned, rfl⟩ := Option.map_eq_some_iff.mp step
    obtain ⟨proto, state, added, effect, applied, _⟩ := callback_turn rfl turned
    have kept := sound.kept side
    have now : (s.links.set id { link with answered := true })[id]? = some { link with answered := true } :=
      List.getElem?_set_self (List.getElem?_eq_some_iff.mp at_id).1
    have grown := answered_grown_links at_id
    exact callback_sound sound applied grown rfl (fun _ _ agreed => agreed) (fun _ _ wanted => wanted)
      (outbound_held grown effect (kept.held _ proto applied.found) rfl ⟨_, now, opener⟩)
      (effect_names effect (applied_settings applied kept.settings)) (answered_links sound at_id)

theorem fail_sound {id : Nat} {s' : Joint PeerId} (sound : JointSound varint data s)
    (step : s.turn channel (.fail side id) = some s') : JointSound varint data s' := by
  obtain ⟨link, at_id, step⟩ := Option.bind_eq_some_iff.mp step
  obtain ⟨⟨opener, _⟩, step⟩ := Option.ite_none_right_eq_some.mp step
  obtain ⟨run, turned, rfl⟩ := Option.map_eq_some_iff.mp step
  obtain ⟨proto, state, added, effect, applied, _⟩ := callback_turn rfl turned
  have kept := sound.kept side
  have grown := answered_grown_links at_id
  exact callback_sound sound applied grown rfl (fun _ _ agreed => agreed) (fun _ _ wanted => wanted)
    (dial_error_held grown effect (kept.held _ proto applied.found))
    (effect_names effect (applied_settings applied kept.settings)) (answered_links sound at_id)

theorem joint_turn_sound {l : JointTurn W} {s' : Joint PeerId} (sound : JointSound varint data s)
    (step : s.turn channel l = some s') : JointSound varint data s' := by
  cases l with
  | command side message =>
    obtain ⟨run, turned, rfl⟩ := Option.map_eq_some_iff.mp step
    exact command_sound sound turned
  | send side userChannel message =>
    cases step
    exact polled_sound sound (user_send_kept (sound.kept side)) (List.Subset.refl _)
  | poll side weather => exact poll_sound sound step
  | accept side id index pieces => exact accept_sound sound step
  | answer side id pieces => exact answer_sound sound step
  | fail side id => exact fail_sound sound step

theorem joint_run_sound {peer : Side → PeerId} {endpoint : Side → ConnectedPoint PeerId} {turns : List (JointTurn W)}
    (run : (jointRuns channel peer endpoint data).replay turns = some s) : JointSound varint data s := by
  refine Machine.invariant (fun s l s' sound step => joint_turn_sound sound step) ?_ run
  exact start_sound channel peer endpoint

end Preservation

section Agreement
variable {PeerId W : Type} {varint : Varint} {channel : Channel varint W} {data : Side → ProtocolsData}

/-- What a step queued for the behaviour of a side. -/
def Joint.queued (s s' : Joint PeerId) (side : Side) : List (HandlerEvent PeerId) :=
  (s'.runs side).handler.pendingEvents.drop (s.runs side).handler.pendingEvents.length

/-- Protocols of one name have one index, whoever configured them. -/
theorem named_same {data data' : ProtocolsData} {i j : Nat} {name : String} (ours : Named data i name)
    (theirs : Named data' j name) : i = j := by
  have apart : ∀ (data data' : ProtocolsData) (name : String), Named data 0 name → ¬ Named data' 1 name := by
    rintro data data' name ⟨_, _, blocks⟩ ⟨_, _, tx⟩
    have same : "/" ++ hexEncode data.genesisHash.toList ++ "/block-announces/1" =
        "/" ++ hexEncode data'.genesisHash.toList ++ "/transactions/1" := by
      cases blocks
      exact (congrArg Prod.fst (Option.some.inj tx)).symm
    -- the names differ in the fourth character from the end
    have endings := congrArg (fun name : String => name.toList.reverse.take 4) same
    simp [String.toList_append] at endings
  have bound : ∀ {data : ProtocolsData} {i : Nat}, Named data i name → i = 0 ∨ i = 1 := by
    rintro data i ⟨_, _, at_i⟩
    rcases i with _ | _ | i
    · exact .inl rfl
    · exact .inr rfl
    · cases at_i
  rcases bound ours with rfl | rfl <;> rcases bound theirs with rfl | rfl
  · rfl
  · exact absurd theirs (apart _ _ _ ours)
  · exact absurd ours (apart _ _ _ theirs)
  · rfl

theorem configured_small {data : ProtocolsData} {index : Nat} {name : String} {handshake : Bytes}
    {upgrade : HandshakeInbound} (at_index : (configured data)[index]? = some (name, handshake, upgrade)) :
    handshake.length < 2 ^ 64 := by
  rcases index with _ | _ | index
  · cases at_index
    simp [BlockAnnouncesHandshake.encode]
  · cases at_index
    simp
  · cases at_index

/-- A handshake completes only in answer to a substream of ours. -/
theorem completed_turn {r r' : HandlerRun PeerId Endpoint} {l : HandlerTurn Endpoint (Wires × W)}
    (step : r.turn channel.transport l = some r') {index sender : Nat} {point : ConnectedPoint PeerId}
    {handshake : Bytes} {direction : Bool}
    (completed : .notifyBehaviour (.handshakeCompleted index point handshake direction sender) ∈
      r'.handler.pendingEvents.drop r.handler.pendingEvents.length) :
    ∃ opened, l = .outbound opened index ∧ opened.handshake = handshake := by
  cases made : l.callback with
  | some pair =>
    obtain ⟨callback, i⟩ := pair
    obtain ⟨proto, state, added, effect, applied, -⟩ := callback_turn made step
    rw [applied.pending, List.drop_left] at completed
    generalize proto.state = before at effect
    cases effect
    case outboundOpening opened inbound direction =>
      cases List.mem_singleton.mp completed
      refine ⟨opened, ?_, rfl⟩
      cases l with
      | command message => cases message <;> cases made
      | outbound opened info => cases made; rfl
      | inbound protocol => cases made
      | dialError info => cases made
      | poll w => cases made
      | send userChannel message => cases made
    all_goals simp at completed
  | none =>
    have nothing_new : r'.handler.pendingEvents.length ≤ r.handler.pendingEvents.length := by
      rcases quiet_view made step with
        ⟨event, rest, pending, rfl⟩ | ⟨_, _, same, _⟩ | ⟨_, _, _, _, _, _, _, _, empty, _⟩
      · rw [pending, List.length_cons]
        cases event <;> exact Nat.le_succ _
      · rw [same]
      · rw [empty]
        exact Nat.zero_le _
    rw [List.drop_eq_nil_of_le nothing_new] at completed
    cases completed

/-- A step of the two is a step of one handler. -/
theorem joint_turn {s s' : Joint PeerId} {l : JointTurn W} (step : s.turn channel l = some s') :
    ∃ side turn run, (s.runs side).turn channel.transport turn = some run ∧
      s'.runs = Function.update s.runs side run ∧
      ∀ opened index, turn = .outbound opened index → ∃ id pieces link, l = .answer side id pieces ∧
        s.links[id]? = some link ∧ link.opener = side ∧ link.info = index ∧
        ∃ socket left, socket.input.flatten <+: s.wires ⟨id, side.other⟩ ∧
          readHandshake varint socket = (.ok opened.handshake, left) := by
  cases l with
  | command side message =>
    obtain ⟨run, turned, rfl⟩ := Option.map_eq_some_iff.mp step
    exact ⟨side, _, run, turned, rfl, nofun⟩
  | send side userChannel message =>
    cases step
    exact ⟨side, .send userChannel message, _, rfl, rfl, nofun⟩
  | poll side weather =>
    refine ⟨side, .poll (s.wires, weather), _, rfl, ?_, nofun⟩
    unfold Joint.turn at step
    dsimp only at step
    split at step <;> cases step <;> rfl
  | accept side id index pieces =>
    obtain ⟨link, at_id, step⟩ := Option.bind_eq_some_iff.mp step
    obtain ⟨proto, found, step⟩ := Option.bind_eq_some_iff.mp step
    obtain ⟨_, step⟩ := Option.ite_none_right_eq_some.mp step
    split at step
    · cases step
    · obtain ⟨run, turned, rfl⟩ := Option.map_eq_some_iff.mp step
      exact ⟨side, _, run, turned, rfl, nofun⟩
  | answer side id pieces =>
    obtain ⟨link, at_id, step⟩ := Option.bind_eq_some_iff.mp step
    obtain ⟨⟨opener, _, begun⟩, step⟩ := Option.ite_none_right_eq_some.mp step
    obtain ⟨_, _, upgraded⟩ := @upgrade_outbound_reads _ varint (fun _ => (⟨id, side⟩ : Endpoint))
      ⟨pieces, [], none⟩ link.request rfl
    split at step
    · cases step
    · rename_i opened left ok
      obtain ⟨run, turned, rfl⟩ := Option.map_eq_some_iff.mp step
      refine ⟨side, _, run, turned, rfl, ?_⟩
      rintro _ _ ⟨⟩
      obtain ⟨handshake, read, same⟩ := upgraded opened (by rw [ok])
      refine ⟨id, pieces, link, rfl, at_id, opener, rfl,
        ⟨pieces, [] ++ varint.frame link.request.handshake, none⟩, _, begun, Prod.ext ?_ rfl⟩
      rw [read, same]
  | fail side id =>
    obtain ⟨link, at_id, step⟩ := Option.bind_eq_some_iff.mp step
    obtain ⟨_, step⟩ := Option.ite_none_right_eq_some.mp step
    obtain ⟨run, turned, rfl⟩ := Option.map_eq_some_iff.mp step
    exact ⟨side, _, run, turned, rfl, nofun⟩

/-- In every run of the two sides: whenever a step of one side queues a
completed handshake, it answered a link of that side, the other side had
agreed to that link for the same protocol, and the handshake is the one the
other side is configured with. -/
theorem handshakes_agreed {peer : Side → PeerId} {endpoint : Side → ConnectedPoint PeerId}
    {turns : List (JointTurn W)} {s s' : Joint PeerId} {l : JointTurn W}
    (run : (jointRuns channel peer endpoint data).replay turns = some s) (step : s.turn channel l = some s')
    {side : Side} {index sender : Nat} {point : ConnectedPoint PeerId} {handshake : Bytes} {direction : Bool}
    (completed : .notifyBehaviour (.handshakeCompleted index point handshake direction sender) ∈
      Joint.queued s s' side) :
    ∃ id pieces link, l = .answer side id pieces ∧ s.links[id]? = some link ∧ link.opener = side ∧
      link.info = index ∧ Agreed (s.history side.other) index id ∧
      (s.runs side.other).handler.protocols[index]?.map ProtocolDetails.handshake = some handshake := by
  have sound := joint_run_sound run
  obtain ⟨mover, turn, r, turned, runs, answers⟩ := joint_turn step
  unfold Joint.queued at completed
  rw [runs] at completed
  by_cases own : side = mover
  · subst own
    rw [Function.update_self] at completed
    obtain ⟨opened, rfl, rfl⟩ := completed_turn turned completed
    obtain ⟨id, pieces, link, rfl, at_id, rfl, rfl, socket, left, begun, read⟩ := answers opened index rfl
    refine ⟨id, pieces, link, rfl, at_id, rfl, rfl, ?_⟩
    rcases (sound.kept link.opener).answered id link at_id with
      nothing | ⟨index, name, handshake, upgrade, accepted, setting, sent, agreed⟩
    · -- the other side has sent nothing, so nothing was read
      rw [nothing, List.prefix_nil] at begun
      obtain ⟨_, _, failed⟩ := read_handshake_nothing begun
      cases read.symm.trans failed
    · have same := named_same (sound.asked id link at_id) (sound.accepted id link index at_id accepted)
      rw [sent] at begun
      have carried := read_handshake_prefix (configured_small setting) begun read
      rw [same]
      refine ⟨agreed, ?_⟩
      have settings := (sound.kept link.opener.other).settings
      rw [← settings, List.getElem?_map] at setting
      obtain ⟨proto, found, configured⟩ := Option.map_eq_some_iff.mp setting
      rw [found, carried]
      exact congrArg some (congrArg (fun settings => settings.2.1) configured)
  · rw [Function.update_of_ne own, List.drop_length] at completed
    cases completed

end Agreement

/-- Both sides are on the chain with the zero hash. -/
def zeroRuns : Machine (Joint Nat) (JointTurn Unit) :=
  jointRuns (.calm .leb128) (fun _ => 0) (fun _ => .listener [] []) fun _ => .zero

def blocksFrame : Bytes :=
  Varint.leb128.frame (BlockAnnouncesHandshake.fromGenesis ProtocolsData.zero.genesisHash).encode

/-- One side asks for the block announces, the other is handed the substream,
opens the protocol and sends its handshake. -/
def openingTurns : List (JointTurn Unit) :=
  [.command .a (.open 0), .poll .a (), .accept .b 0 0 [[], blocksFrame], .command .b (.open 0), .poll .b (),
    .poll .b (), .poll .b ()]

/-- The handshake comes back in two pieces. -/
def answeringTurn : JointTurn Unit := .answer .a 0 [blocksFrame.take 3, blocksFrame.drop 3]

def completes (index : Nat) : HandlerEvent Nat → Bool
  | .notifyBehaviour (.handshakeCompleted i _ _ _ _) => i == index
  | _ => false

/-- The answer completes the handshake, and the other side has agreed. -/
theorem block_announces_agreed :
    ∃ s s', zeroRuns.replay openingTurns = some s ∧ s.turn (.calm .leb128) answeringTurn = some s' ∧
      (Joint.queued s s' .a).any (completes 0) = true ∧ Agreed (s.history .b) 0 0 := by
  have ran : ((zeroRuns.replay openingTurns).bind fun s => (s.turn (.calm .leb128) answeringTurn).map fun s' =>
      (Joint.queued s s' .a).any (completes 0)) = some true := by decide +kernel
  obtain ⟨s, run, ran⟩ := Option.bind_eq_some_iff.mp ran
  obtain ⟨s', step, completed⟩ := Option.map_eq_some_iff.mp ran
  refine ⟨s, s', run, step, completed, ?_⟩
  obtain ⟨event, member, completing⟩ := List.any_eq_true.mp completed
  unfold completes at completing
  split at completing
  · obtain rfl := eq_of_beq completing
    obtain ⟨id, pieces, link, same, _, _, _, agreed, _⟩ := handshakes_agreed run step member
    cases same
    exact agreed
  · cases completing

end Subp2pExplorer.Notifications
