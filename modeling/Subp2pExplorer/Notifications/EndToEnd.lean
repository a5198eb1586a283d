import Subp2pExplorer.Notifications.Carrying

/-! From the user of one side to the behaviour of the other: what is noted of
the two sides, their links and what the ends have given out, and what every
step keeps of it. -/
namespace Subp2pExplorer.Notifications
open Lib

section Notes
variable {notes added : List Said} {links links' : List Link} {channels channels' : Side → Nat}
  {given given' : Given} {id : Nat} {link : Link}

theorem heard_on_append : heardOn id (notes ++ added) = heardOn id notes ++ heardOn id added := List.filterMap_append

/-- What was heard from a link was noted. -/
theorem heard_noted {message : Bytes} (member : message ∈ heardOn id notes) :
    ∃ index, .heard id index message ∈ notes := by
  obtain ⟨note, noted, same⟩ := List.mem_filterMap.mp member
  unfold Said.heardOn at same
  split at same
  · obtain ⟨rfl, found⟩ := Option.ite_none_right_eq_some.mp same
    cases found
    exact ⟨_, noted⟩
  · cases same

theorem unheard (quiet : ∀ index message, .heard id index message ∉ notes) : heardOn id notes = [] := by
  refine List.eq_nil_iff_forall_not_mem.mpr fun message member => ?_
  obtain ⟨index, noted⟩ := heard_noted member
  exact quiet index message noted

theorem put_noted {side : Side} {channel : Nat} {message : Bytes} (member : message ∈ putInto side channel notes) :
    .put side channel message ∈ notes := by
  obtain ⟨note, noted, same⟩ := List.mem_filterMap.mp member
  unfold Said.putInto at same
  split at same
  · obtain ⟨⟨rfl, rfl⟩, found⟩ := Option.ite_none_right_eq_some.mp same
    cases found
    exact noted
  · cases same

/-- Each opened link is an answered one, and no other link of its opener has its
channel. -/
structure Openings (notes : List Said) (links : List Link) (channels : Side → Nat) : Prop where
  opened : ∀ id channel, .opened id channel ∈ notes → ∃ link, links[id]? = some link ∧ link.answered = true ∧
    channel ≤ channels link.opener
  once : ∀ id first second, .opened id first ∈ notes → .opened id second ∈ notes → first = second
  apart : ∀ id id' link link' channel, links[id]? = some link → links[id']? = some link' → link.opener = link'.opener →
    .opened id channel ∈ notes → .opened id' channel ∈ notes → id = id'

theorem Openings.later (openings : Openings notes links channels) (going : Going links links')
    (more : ∀ side, channels side ≤ channels' side) (quiet : ∀ id channel, .opened id channel ∉ added) :
    Openings (notes ++ added) links' channels' := by
  have before : ∀ {id channel}, .opened id channel ∈ notes ++ added → .opened id channel ∈ notes :=
    fun member => (List.mem_append.mp member).resolve_right (quiet _ _)
  have opener : ∀ {id channel link'}, .opened id channel ∈ notes → links'[id]? = some link' →
      ∃ link, links[id]? = some link ∧ link'.opener = link.opener := by
    intro id channel link' noted at_id
    obtain ⟨link, found, _⟩ := openings.opened id channel noted
    obtain ⟨later, at_id', updated, _⟩ := going id link found
    cases at_id.symm.trans at_id'
    exact ⟨link, found, updated.opener⟩
  refine ⟨fun id channel member => ?_, fun id first second member member' => openings.once id first second
    (before member) (before member'), fun id id' link link' channel at_id at_id' same member member' => ?_⟩
  · obtain ⟨link, found, answered, within⟩ := openings.opened id channel (before member)
    obtain ⟨link', found', updated, still⟩ := going id link found
    exact ⟨link', found', still answered, updated.opener ▸ within.trans (more _)⟩
  · obtain ⟨old, found, own⟩ := opener (before member) at_id
    obtain ⟨old', found', own'⟩ := opener (before member') at_id'
    exact openings.apart id id' old old' channel found found' (own ▸ own' ▸ same) (before member) (before member')

/-- While links move on, openings that are told stay told. -/
theorem Openings.going (openings : Openings notes links channels) (going : Going links links')
    (more : ∀ side, channels side ≤ channels' side) : Openings notes links' channels' := by
  have later : Openings (notes ++ []) links' channels' := openings.later going more nofun
  rwa [List.append_nil] at later

/-- An answer opens its link with a channel that none has. -/
theorem Openings.opens (openings : Openings notes links channels) (at_id : links[id]? = some link)
    (unanswered : link.answered = false) (going : Going links links') {link' : Link}
    (now : links'[id]? = some link') (opener : link'.opener = link.opener) (answered : link'.answered = true)
    (more : ∀ side, channels side ≤ channels' side) (created : channels' link.opener = channels link.opener + 1) :
    Openings (notes ++ [.opened id (channels link.opener + 1)]) links' channels' := by
  have later := openings.going going more
  have unopened : ∀ channel, .opened id channel ∉ notes := by
    intro channel noted
    obtain ⟨found, at_id', done, _⟩ := openings.opened id channel noted
    cases at_id.symm.trans at_id'
    cases unanswered.symm.trans done
  have unused : ∀ other otherLink, links'[other]? = some otherLink → otherLink.opener = link.opener →
      .opened other (channels link.opener + 1) ∉ notes := by
    intro other otherLink at_other same noted
    obtain ⟨before, found, _, within⟩ := openings.opened other _ noted
    obtain ⟨after, at_other', updated, _⟩ := going other before found
    cases at_other.symm.trans at_other'
    rw [← updated.opener, same] at within
    exact Nat.not_succ_le_self _ within
  have either : ∀ {other channel}, .opened other channel ∈ notes ++ [.opened id (channels link.opener + 1)] →
      .opened other channel ∈ notes ∨ other = id ∧ channel = channels link.opener + 1 := by
    intro other channel member
    rcases List.mem_append.mp member with earlier | last
    · exact .inl earlier
    · cases List.mem_singleton.mp last
      exact .inr ⟨rfl, rfl⟩
  refine ⟨fun other channel member => ?_, fun other first second member member' => ?_,
    fun other other' otherLink otherLink' channel at_other at_other' same member member' => ?_⟩
  · rcases either member with earlier | ⟨rfl, rfl⟩
    · exact later.opened other channel earlier
    · exact ⟨link', now, answered, by rw [opener, created]⟩
  · rcases either member with earlier | ⟨rfl, rfl⟩
    · rcases either member' with earlier' | ⟨rfl, rfl⟩
      · exact later.once other first second earlier earlier'
      · exact absurd earlier (unopened first)
    · rcases either member' with earlier' | ⟨_, rfl⟩
      · exact absurd earlier' (unopened second)
      · rfl
  · rcases either member with earlier | ⟨rfl, rfl⟩
    · rcases either member' with earlier' | ⟨rfl, rfl⟩
      · exact later.apart other other' otherLink otherLink' channel at_other at_other' same earlier earlier'
      · cases now.symm.trans at_other'
        exact absurd earlier (unused other otherLink at_other (same.trans opener))
    · rcases either member' with earlier' | ⟨rfl, _⟩
      · cases now.symm.trans at_other
        exact absurd earlier' (unused other' otherLink' at_other' (same.symm.trans opener))
      · rfl

/-- What was heard from a link is what its far end has given out, and it was
told for the protocol the link was asked for. -/
structure Hearings (notes : List Said) (links : List Link) (given : Given) : Prop where
  told : ∀ (id : Nat) link, links[id]? = some link → given ⟨id, link.opener.other⟩ = heardOn id notes
  nothing : ∀ e : Endpoint, links[e.link]? = none → given e = []
  heard : ∀ id index message, .heard id index message ∈ notes →
    ∃ link, links[id]? = some link ∧ link.info = index

theorem Hearings.later (hearings : Hearings notes links given) (onward : Onward links links')
    (quiet : ∀ id index message, .heard id index message ∉ added) : Hearings (notes ++ added) links' given := by
  refine ⟨fun id link' at_id => ?_, fun e absent => hearings.nothing e ?_, fun id index message member => ?_⟩
  · obtain ⟨link, before, updated⟩ := onward.back id link' at_id
    rw [heard_on_append, unheard (quiet id), List.append_nil, updated.opener]
    exact hearings.told id link before
  · rcases found : links[e.link]? with _ | link
    · rfl
    · obtain ⟨_, found', _⟩ := onward.forth _ link found
      cases absent.symm.trans found'
  · obtain ⟨link, before, info⟩ :=
      hearings.heard id index message ((List.mem_append.mp member).resolve_right (quiet id index message))
    obtain ⟨link', found, updated, _⟩ := onward.forth id link before
    exact ⟨link', found, updated.info.trans info⟩

theorem Hearings.onward (hearings : Hearings notes links given) (onward : Onward links links') :
    Hearings notes links' given := by
  have later : Hearings (notes ++ []) links' given := hearings.later onward nofun
  rwa [List.append_nil] at later

theorem Hearings.hears (hearings : Hearings notes links given) (at_id : links[id]? = some link) (message : Bytes) :
    Hearings (notes ++ [.heard id link.info message]) links
      (Function.update given ⟨id, link.opener.other⟩ (given ⟨id, link.opener.other⟩ ++ [message])) := by
  refine ⟨fun other otherLink at_other => ?_, fun e absent => ?_, fun other index told member => ?_⟩
  · rw [heard_on_append]
    by_cases same : id = other
    · subst same
      cases at_id.symm.trans at_other
      rw [Function.update_self, hearings.told id link at_id]
      simp [heardOn, Said.heardOn]
    · have apart : (⟨other, otherLink.opener.other⟩ : Endpoint) ≠ ⟨id, link.opener.other⟩ := fun ends =>
        same (congrArg Endpoint.link ends).symm
      rw [Function.update_of_ne apart, hearings.told other otherLink at_other]
      simp [heardOn, Said.heardOn, same]
  · rw [Function.update_of_ne, hearings.nothing e absent]
    rintro rfl
    cases at_id.symm.trans absent
  · rcases List.mem_append.mp member with earlier | last
    · exact hearings.heard other index told earlier
    · cases List.mem_singleton.mp last
      exact ⟨link, at_id, rfl⟩

/-- A new link, from which nothing was heard. -/
theorem Hearings.asked (hearings : Hearings notes links given) (link : Link) : Hearings notes (links ++ [link]) given := by
  refine ⟨fun id found at_id => ?_, fun e absent => hearings.nothing e ?_, fun id index message member => ?_⟩
  · rcases before : links[id]? with _ | old
    · rw [hearings.nothing ⟨id, found.opener.other⟩ before, unheard]
      intro index message noted
      obtain ⟨_, there, _⟩ := hearings.heard id index message noted
      cases before.symm.trans there
    · rw [List.getElem?_append_left (List.getElem?_eq_some_iff.mp before).1, before] at at_id
      cases at_id
      exact hearings.told id found before
  · exact List.getElem?_eq_none ((List.length_append ▸ Nat.le_add_right _ _).trans (List.getElem?_eq_none_iff.mp absent))
  · obtain ⟨old, before, info⟩ := hearings.heard id index message member
    exact ⟨old, (List.getElem?_append_left (List.getElem?_eq_some_iff.mp before).1).trans before, info⟩

end Notes

section Carriages
variable {PeerId : Type} {varint : Varint} {notes : List Said} {links : List Link} {side : Side}
  {protocols : List (ProtocolDetails Endpoint)} {wires wires' : Wires} {given given' : Given} {id k : Nat} {link : Link}
  {sent : List Bytes} {proto : ProtocolDetails Endpoint} {state : State Endpoint}

theorem carried_fit (carried : Carried varint notes protocols wires given id link sent)
    (put : ∀ side channel message, .put side channel message ∈ notes → Fits message) :
    ∀ message ∈ sent, Fits message := by
  intro message member
  rcases carried.source with rfl | ⟨channel, _, order⟩
  · cases member
  · exact put _ channel message (put_noted (order.subset member))

/-- The other side reads the next message of a link. -/
theorem Carrying.reads (carrying : Carrying varint notes links side protocols wires given)
    (small : ∀ (id : Nat) link, links[id]? = some link → Fits link.request.handshake)
    (put : ∀ side channel message, .put side channel message ∈ notes → Fits message) (at_id : links[id]? = some link)
    {message : Bytes} (reads : Reads varint ⟨id, side.other⟩ (wires ⟨id, side⟩) given given'
      (.ready (some (.ok message)))) (opener : link.opener = side) :
    Carrying varint notes links side protocols wires given' where
  opened := carrying.opened
  carried other otherLink at_other own := by
    obtain ⟨sent, carried⟩ := carrying.carried other otherLink at_other own
    obtain ⟨rfl, further⟩ := reads
    refine ⟨sent, carried.wire, ?_, carried.source, carried.waiting⟩
    by_cases same : other = id
    · subst same
      cases at_id.symm.trans at_other
      subst opener
      rw [Function.update_self]
      refine further _ sent ?_ carried.wire carried.given
      exact List.forall_mem_cons.mpr ⟨small other link at_id, carried_fit carried put⟩
    · rw [Function.update_of_ne fun ends => same (congrArg Endpoint.link ends)]
      exact carried.given

/-- A message that the user puts into a channel waits behind those before it. -/
theorem Carrying.put (carrying : Carrying varint notes links side protocols wires given) (channel : Nat)
    (message : Bytes) {h : NotificationsHandler PeerId Endpoint} (own : h.protocols = protocols) :
    Carrying varint (notes ++ [.put side channel message]) links side (userSend channel message h).protocols wires
      given := by
  subst own
  have entry : ∀ {k : Nat} {proto : ProtocolDetails Endpoint} {recv inbound out},
      (userSend channel message h).protocols[k]? = some proto → proto.state = .opened recv inbound (some out) →
        ∃ (before : ProtocolDetails Endpoint) (recv₀ : Receiver), h.protocols[k]? = some before ∧
          before.state = .opened recv₀ inbound (some out) ∧ recv = recv₀.send channel message := by
    intro k proto recv inbound out at_k opened
    rw [userSend, List.getElem?_map] at at_k
    obtain ⟨before, found, rfl⟩ := Option.map_eq_some_iff.mp at_k
    dsimp only at opened
    split at opened
    · rename_i recv₀ inbound₀ out₀ state
      cases opened
      exact ⟨before, recv₀, found, state, rfl⟩
    · rename_i other
      exact absurd opened (other recv inbound (some out))
  refine ⟨fun k proto recv inbound out at_k opened => ?_, fun id link at_id opener => ?_⟩
  · obtain ⟨before, recv₀, found, state, _⟩ := entry at_k opened
    exact carrying.opened k before recv₀ inbound out found state
  · obtain ⟨sent, carried⟩ := carrying.carried id link at_id opener
    have grown : Carried varint (notes ++ [.put side channel message]) h.protocols wires given id link sent :=
      carried.later rfl rfl
    refine ⟨sent, grown.wire, grown.given, grown.source, fun k proto recv inbound out at_k opened socket => ?_⟩
    obtain ⟨before, recv₀, found, state, rfl⟩ := entry at_k opened
    obtain ⟨noted, order⟩ := carried.waiting k before recv₀ inbound out found state socket
    subst opener
    unfold Receiver.send
    split
    · rename_i same
      refine ⟨List.mem_append_left _ noted, ?_⟩
      have put : putInto link.opener recv₀.channel [.put link.opener channel message] = [message] := by
        simp [putInto, Said.putInto, same]
      rw [put_into_append, put, Receiver.messages, ← List.append_assoc, ← List.append_assoc]
      rw [Receiver.messages, ← List.append_assoc] at order
      exact order.append_right [message]
    · exact ⟨List.mem_append_left _ noted, order.trans (put_into_later _)⟩

end Carriages

/-- How many channels each handler has created. -/
def Joint.created {PeerId : Type} (s : Joint PeerId) (side : Side) : Nat := (s.runs side).handler.channels

/-- What the handlers ask for is short enough to be read, and no message waits
in them. -/
structure Queues {PeerId : Type} (s : Joint PeerId) : Prop where
  requests : ∀ side request info, .outboundSubstreamRequest request info ∈ (s.runs side).handler.pendingEvents →
    Fits request.handshake
  unsaid : ∀ side index bytes, .notifyBehaviour (.notification index bytes) ∉ (s.runs side).handler.pendingEvents
  small : ∀ (id : Nat) link, s.links[id]? = some link → Fits link.request.handshake

/-- What holds of the two sides, what was given out and what was noted. -/
structure Telling {PeerId : Type} (varint : Varint) (notes : List Said) (s : Joint PeerId) (given : Given) : Prop where
  carrying : ∀ side, Carrying varint notes s.links side (s.runs side).handler.protocols s.wires given
  queues : Queues s
  openings : Openings notes s.links s.created
  hearings : Hearings notes s.links given

section Callbacks
variable {PeerId W : Type} {varint : Varint} {channel : OrderedChannel varint W} {data : Side → ProtocolsData}
  {notes : List Said} {s s' : Joint PeerId} {given : Given} {side : Side} {run : HandlerRun PeerId Endpoint}
  {l : HandlerTurn Endpoint (Wires × Given × W)} {callback : Callback Endpoint} {k : Nat}
  {proto : ProtocolDetails Endpoint} {state : State Endpoint} {added : List (HandlerEvent PeerId)}

/-- A callback queues requests with the handshake of its protocol, and no message. -/
theorem effect_queues {h : NotificationsHandler PeerId Endpoint} {before after : State Endpoint}
    (effect : Effect h proto k callback before after added) :
    (∀ request info, .outboundSubstreamRequest request info ∈ added → request.handshake = proto.handshake) ∧
      ∀ index bytes, .notifyBehaviour (.notification index bytes) ∉ added := by
  cases effect
  case openClosed | openRemote =>
    refine ⟨fun request info member => ?_, by simp⟩
    cases List.mem_singleton.mp member
    rfl
  all_goals exact ⟨by simp, by simp⟩

theorem Queues.called (queues : Queues s) (sound : JointSound varint data s)
    (applied : Applied (s.runs side).handler run.handler proto k state added)
    (effect : Effect (s.runs side).handler proto k callback proto.state state added)
    (runs : s'.runs = Function.update s.runs side run) (onward : Onward s.links s'.links) : Queues s' := by
  have handshake : Fits proto.handshake :=
    configured_small (applied_settings applied (sound.kept side).settings)
  have pending : ∀ which event, event ∈ (s'.runs which).handler.pendingEvents →
      event ∈ (s.runs which).handler.pendingEvents ∨ event ∈ added := by
    intro which event member
    rw [runs] at member
    by_cases own : which = side
    · subst own
      rw [Function.update_self, applied.pending] at member
      exact List.mem_append.mp member
    · rw [Function.update_of_ne own] at member
      exact .inl member
  refine ⟨fun which request info member => ?_, fun which index bytes member => ?_, fun id link' at_id => ?_⟩
  · rcases pending which _ member with before | new
    · exact queues.requests which request info before
    · rw [(effect_queues effect).1 request info new]
      exact handshake
  · rcases pending which _ member with before | new
    · exact queues.unsaid which index bytes before
    · exact (effect_queues effect).2 index bytes new
  · obtain ⟨link, before, updated⟩ := onward.back id link' at_id
    rw [updated.request]
    exact queues.small id link before

theorem created_called (made : l.callback = some (callback, k))
    (turned : (s.runs side).turn channel.transport l = some run) (found : (s.runs side).handler.protocols[k]? = some proto)
    (runs : s'.runs = Function.update s.runs side run) :
    s'.created side = s.created side + (callback.opens proto.state).toNat ∧
      ∀ which, s.created which ≤ s'.created which := by
  have own : s'.created side = s.created side + (callback.opens proto.state).toNat := by
    rw [Joint.created, runs, Function.update_self, callback_channels made turned found]
    rfl
  refine ⟨own, fun which => ?_⟩
  by_cases same : which = side
  · subst same
    rw [own]
    exact Nat.le_add_right _ _
  · rw [Joint.created, Joint.created, runs, Function.update_of_ne same]

/-- A callback that opens nothing. -/
theorem Telling.called (telling : Telling varint notes s given) (sound : JointSound varint data s)
    (made : l.callback = some (callback, k)) (turned : (s.runs side).turn channel.transport l = some run)
    (applied : Applied (s.runs side).handler run.handler proto k state added)
    (effect : Effect (s.runs side).handler proto k callback proto.state state added)
    (still : callback.opens proto.state = false) (runs : s'.runs = Function.update s.runs side run)
    (wires : s'.wires = s.wires) (onward : Onward s.links s'.links) : Telling varint notes s' given := by
  have carrying : ∀ which, Carrying varint notes s'.links which (s'.runs which).handler.protocols s'.wires given := by
    intro which
    rw [wires, runs, ← List.append_nil notes]
    refine Carrying.later ?_ onward
    by_cases own : which = side
    · subst own
      rw [Function.update_self, applied.protocols]
      refine (telling.carrying which).visit applied.found fun recv inbound' out' opened => ?_
      rcases effect_keeps_receiver effect with ⟨_, keeps⟩ | ⟨opens, _⟩
      · obtain ⟨inbound, before⟩ := keeps recv inbound' (some out') opened
        exact ⟨inbound, out', before, rfl⟩
      · cases still.symm.trans opens
    · rw [Function.update_of_ne own]
      exact telling.carrying which
  exact ⟨carrying, telling.queues.called sound applied effect runs onward,
    telling.openings.going onward.forth (created_called made turned applied.found runs).2, telling.hearings.onward onward⟩

/-- An answer that opens the protocol: it sends on this link from now on, out of
a new channel. -/
theorem Telling.opens (telling : Telling varint notes s given) (sound : JointSound varint data s)
    {opened : HandshakeOutboundOpen Endpoint} {inbound : Option (HandshakeInboundSubstream Endpoint)} {direction : Bool}
    {id : Nat} {link : Link} (at_id : s.links[id]? = some link) (unanswered : link.answered = false)
    (opener : link.opener = side) (info : link.info = k) (socket : opened.substream.socket = ⟨id, side⟩)
    (made : l.callback = some (.outbound opened, k)) (turned : (s.runs side).turn channel.transport l = some run)
    (applied : Applied (s.runs side).handler run.handler proto k
      (.opened ⟨(s.runs side).handler.channels + 1, none, []⟩ inbound (some opened.substream)) added)
    (effect : Effect (s.runs side).handler proto k (.outbound opened) proto.state
      (.opened ⟨(s.runs side).handler.channels + 1, none, []⟩ inbound (some opened.substream)) added)
    (before : proto.state = .opening inbound direction) (runs : s'.runs = Function.update s.runs side run)
    (wires : s'.wires = s.wires) (links : s'.links = s.links.set id { link with answered := true }) :
    Telling varint (notes ++ [.opened id ((s.runs side).handler.channels + 1)]) s' given := by
  have onward : Onward s.links s'.links := links ▸ onward_set at_id ⟨rfl, rfl, rfl, fun _ accepted => accepted⟩ fun _ => rfl
  have now : s'.links[id]? = some { link with answered := true } := by
    rw [links]
    exact List.getElem?_set_self (List.getElem?_eq_some_iff.mp at_id).1
  obtain ⟨created, more⟩ := created_called made turned applied.found runs
  have counted : s'.created side = s.created side + 1 := by rw [created, before]; rfl
  have carrying : ∀ which, Carrying varint (notes ++ [.opened id ((s.runs side).handler.channels + 1)]) s'.links which
      (s'.runs which).handler.protocols s'.wires given := by
    intro which
    rw [wires, runs]
    by_cases own : which = side
    · subst own
      rw [Function.update_self, applied.protocols]
      have later : Carrying varint (notes ++ [.opened id ((s.runs which).handler.channels + 1)]) s'.links which
          (s.runs which).handler.protocols s.wires given := (telling.carrying which).later onward
      refine ⟨fun i entry recv inbound out at_i state => ?_, fun i link' at_i own => ?_⟩
      · rcases set_entry applied.found at_i with ⟨rfl, rfl⟩ | ⟨_, earlier⟩
        · cases state
          rw [socket]
          exact ⟨rfl, _, now, opener, info, rfl⟩
        · exact later.opened i entry recv inbound out earlier state
      · obtain ⟨link₀, found₀, updated⟩ := onward.back i link' at_i
        obtain ⟨sent, carried₀⟩ := (telling.carrying which).carried i link₀ found₀ (updated.opener.symm.trans own)
        have carried : Carried varint (notes ++ [.opened id ((s.runs which).handler.channels + 1)])
            (s.runs which).handler.protocols s.wires given i link' sent := carried₀.later updated.opener updated.request
        refine ⟨sent, carried.wire, carried.given, carried.source, fun j entry recv inbound out at_j state socket' => ?_⟩
        rcases set_entry applied.found at_j with ⟨rfl, rfl⟩ | ⟨_, earlier⟩
        · cases state
          obtain rfl : id = i := congrArg Endpoint.link (socket.symm.trans socket')
          refine ⟨List.mem_append_right _ (List.mem_singleton.mpr rfl), ?_⟩
          -- nothing was sent on a link that was not answered
          rcases carried₀.source with rfl | ⟨first, noted, _⟩
          · exact List.nil_sublist _
          · obtain ⟨_, at_id', answered, _⟩ := telling.openings.opened id first noted
            cases at_id.symm.trans at_id'
            cases unanswered.symm.trans answered
        · exact carried.waiting j entry recv inbound out earlier state socket'
    · rw [Function.update_of_ne own]
      exact (telling.carrying which).later onward
  have hearings : Hearings (notes ++ [.opened id ((s.runs side).handler.channels + 1)]) s'.links given :=
    telling.hearings.later onward (by simp)
  refine ⟨carrying, telling.queues.called sound applied effect runs onward, ?_, hearings⟩
  subst opener
  exact telling.openings.opens at_id unanswered onward.forth now rfl rfl more counted

end Callbacks

section Steps
variable {PeerId W : Type} {varint : Varint} {channel : OrderedChannel varint W} {data : Side → ProtocolsData}
  {notes : List Said} {s s' : Joint PeerId} {given : Given} {side : Side} {weather : W}
  {result : Poll (HandlerEvent PeerId)} {h : NotificationsHandler PeerId Endpoint} {w : Wires × Given × W}

theorem taken_handler (r : HandlerRun PeerId Endpoint) : (r.take h result).handler = h := by
  unfold HandlerRun.take
  split <;> rfl

theorem polled_channels
    (polled : (s.runs side).handler.poll channel.transport (s.wires, given, weather) = (result, h, w)) :
    h.channels = (s.runs side).handler.channels := by
  rcases poll_cases channel.transport (s.runs side).handler (s.wires, given, weather) with
    ⟨_, _, _, same⟩ | ⟨_, _, _, _, same, _⟩
  all_goals
    cases polled.symm.trans same
    rfl

theorem Queues.polled (queues : Queues s) (run : HandlerRun PeerId Endpoint) (wires : Wires)
    (pending : run.handler.pendingEvents ⊆ (s.runs side).handler.pendingEvents) :
    Queues { s.setRun side run with wires := wires } := by
  have earlier : ∀ which event, event ∈ ((s.setRun side run).runs which).handler.pendingEvents →
      event ∈ (s.runs which).handler.pendingEvents := by
    intro which event member
    rcases side.eq_or_other which with rfl | rfl
    · rw [Joint.run_own] at member
      exact pending member
    · rwa [Joint.run_other] at member
  exact ⟨fun which request info member => queues.requests which request info (earlier which _ member),
    fun which index bytes member => queues.unsaid which index bytes (earlier which _ member), queues.small⟩

theorem Telling.polled (telling : Telling varint notes s given) (sound : JointSound varint data s)
    (put : ∀ side channel message, .put side channel message ∈ notes → Fits message)
    (polled : (s.runs side).handler.poll channel.transport (s.wires, given, weather) = (result, h, w)) :
    Telling varint (notes ++ (⟨s, given⟩ : Conversation PeerId).heardOf side result)
      { s.setRun side ((s.runs side).take h result) with wires := w.1 } w.2.1 := by
  have kept := sound.kept side
  obtain ⟨own, tells⟩ := poll_carrying kept (telling.carrying side) (telling.queues.unsaid side) weather polled
  obtain ⟨after, pending⟩ := poll_kept kept (given, weather) polled
  have far : ∀ (id : Nat), w.1 ⟨id, side.other⟩ = s.wires ⟨id, side.other⟩ := fun id => after.others _ side.other_ne
  have both : ∀ {notes given'}, Carrying varint notes s.links side h.protocols w.1 given' →
      Carrying varint notes s.links side.other (s.runs side.other).handler.protocols w.1 given' → ∀ which,
      Carrying varint notes s.links which ((s.setRun side ((s.runs side).take h result)).runs which).handler.protocols
        w.1 given' := by
    intro notes given' ours theirs which
    rcases side.eq_or_other which with rfl | rfl
    · rw [Joint.run_own, taken_handler]
      exact ours
    · rw [Joint.run_other]
      exact theirs
  have queues := telling.queues.polled ((s.runs side).take h result) w.1 (by
    rw [taken_handler]
    rcases pending with ⟨event, popped, _⟩ | ⟨empty, _⟩
    · rw [popped]
      exact List.subset_cons_self _ _
    · rw [empty]
      exact List.nil_subset _)
  have created : ∀ which, s.created which ≤ (s.setRun side ((s.runs side).take h result)).created which := by
    intro which
    unfold Joint.created
    rcases side.eq_or_other which with rfl | rfl
    · rw [Joint.run_own, taken_handler, polled_channels polled]
    · rw [Joint.run_other]
  have theirs : Carrying varint notes s.links side.other (s.runs side.other).handler.protocols w.1 given :=
    (telling.carrying side.other).same (fun id _ _ _ => far id) fun _ _ _ _ => rfl
  cases tells with
  | nothing same quiet =>
    have silent : (⟨s, given⟩ : Conversation PeerId).heardOf side result = [] := by
      unfold Conversation.heardOf
      split
      · exact absurd rfl (quiet _ _)
      · rfl
    rw [silent, same, List.append_nil]
    exact ⟨both own theirs, queues, telling.openings.going Onward.rfl.forth created, telling.hearings⟩
  | @message index bytes proto stream found held reads =>
    obtain ⟨at_side, ⟨link, at_link, opener, accepted⟩, _⟩ := (kept.held index proto found).inbound stream held
    obtain ⟨id, mine⟩ : ∃ id, stream.socket = ⟨id, side⟩ := ⟨stream.socket.link, by rw [← at_side]⟩
    rw [mine] at at_link reads
    have info : link.info = index := named_same (sound.asked id link at_link) (sound.accepted id link index at_link accepted)
    have ours : side = link.opener.other := by rw [opener, Side.other_other]
    have noted : (⟨s, given⟩ : Conversation PeerId).heardOf side (.ready (.notifyBehaviour (.notification index bytes))) =
        [.heard id link.info bytes] := by
      simp [Conversation.heardOf, Conversation.heldLink, found, held, mine, info]
    have read : Reads varint ⟨id, side.other.other⟩ (w.1 ⟨id, side.other⟩) given w.2.1 (.ready (some (.ok bytes))) := by
      rw [Side.other_other, far]
      exact reads
    have readers := theirs.reads telling.queues.small put at_link read opener
    obtain ⟨gave, _⟩ := reads
    have same : ∀ (other : Nat), w.2.1 ⟨other, side.other⟩ = given ⟨other, side.other⟩ := by
      intro other
      rw [gave, Function.update_of_ne fun ends => side.other_ne (congrArg Endpoint.side ends)]
    rw [noted]
    refine ⟨both ((own.same (fun _ _ _ _ => rfl) fun other _ _ _ => same other).later .rfl) (readers.later .rfl), queues,
      telling.openings.later Onward.rfl.forth created (by simp), ?_⟩
    rw [gave, ours]
    exact telling.hearings.hears at_link bytes

/-- A new link carries the handshake only. -/
theorem Telling.asked (telling : Telling varint notes s given) (request : HandshakeOutbound) (info : Nat)
    (fits : Fits request.handshake) : Telling varint notes (s.openLink varint side request info) given := by
  let link : Link := ⟨side, request, info, none, false⟩
  have going : Going s.links (s.links ++ [link]) := fun id old found =>
    ⟨old, (List.getElem?_append_left (List.getElem?_eq_some_iff.mp found).1).trans found, .rfl, fun answered => answered⟩
  have entry : ∀ {id : Nat} {found : Link}, (s.links ++ [link])[id]? = some found →
      s.links[id]? = some found ∨ id = s.links.length ∧ found = link := by
    intro id found at_id
    rcases Nat.lt_or_ge id s.links.length with within | beyond
    · exact .inl ((List.getElem?_append_left within).symm.trans at_id)
    · obtain ⟨only, same⟩ := List.getElem?_eq_some_iff.mp ((List.getElem?_append_right beyond).symm.trans at_id)
      have last : id - s.links.length = 0 := by simpa using only
      exact .inr ⟨by omega, by simpa [last] using same.symm⟩
  have beyond : ∀ {id : Nat}, s.links.length = id → s.links[id]? = none := fun last =>
    List.getElem?_eq_none (Nat.le_of_eq last)
  have unchanged : ∀ e : Endpoint, e.link ≠ s.links.length →
      (s.openLink varint side request info).wires e = s.wires e := by
    intro e other
    have apart : ∀ which, e ≠ ⟨s.links.length, which⟩ := fun which same => other (congrArg Endpoint.link same)
    exact (Function.update_of_ne (apart _) _ _).trans (Function.update_of_ne (apart _) _ _)
  have submitted : (s.openLink varint side request info).wires ⟨s.links.length, side⟩ = varint.frames [request.handshake] := by
    have apart : (⟨s.links.length, side⟩ : Endpoint) ≠ ⟨s.links.length, side.other⟩ := fun same =>
      side.other_ne (congrArg Endpoint.side same).symm
    refine ((Function.update_of_ne apart _ _).trans (Function.update_self _ _ _)).trans ?_
    exact (List.append_nil _).symm
  refine ⟨fun which => ?_, ⟨telling.queues.requests, telling.queues.unsaid, fun id found at_id => ?_⟩,
    telling.openings.going going fun _ => Nat.le_refl _, telling.hearings.asked link⟩
  · have carrying := telling.carrying which
    refine ⟨fun k proto recv inbound out at_k opened => ?_, fun id found at_id opener => ?_⟩
    · obtain ⟨own, old, at_old, facts⟩ := carrying.opened k proto recv inbound out at_k opened
      exact ⟨own, old, (List.getElem?_append_left (List.getElem?_eq_some_iff.mp at_old).1).trans at_old, facts⟩
    · rcases entry at_id with before | ⟨rfl, rfl⟩
      · obtain ⟨sent, carried⟩ := carrying.carried id found before opener
        refine ⟨sent, carried.same (unchanged _ ?_) rfl⟩
        exact (List.getElem?_eq_some_iff.mp before).1.ne
      · subst opener
        refine ⟨[], submitted, ?_, .inl rfl, fun k proto recv inbound out at_k opened socket => ?_⟩
        · have nothing := telling.hearings.nothing ⟨s.links.length, link.opener.other⟩ (beyond rfl)
          exact nothing ▸ List.nil_prefix
        · obtain ⟨_, old, at_old, _⟩ := carrying.opened k proto recv inbound out at_k opened
          rw [socket, beyond rfl] at at_old
          cases at_old
  · rcases entry at_id with before | ⟨_, rfl⟩
    · exact telling.queues.small id found before
    · exact fits

/-- The user of a side puts a message into a channel. -/
theorem Telling.put (telling : Telling varint notes s given) (userChannel : Nat) (message : Bytes) :
    Telling varint (notes ++ [.put side userChannel message])
      (s.setRun side { s.runs side with handler := userSend userChannel message (s.runs side).handler }) given := by
  let run := { s.runs side with handler := userSend userChannel message (s.runs side).handler }
  have pending : ∀ which, ((s.setRun side run).runs which).handler.pendingEvents =
      (s.runs which).handler.pendingEvents := by
    intro which
    rcases side.eq_or_other which with rfl | rfl
    · rw [Joint.run_own]
      rfl
    · rw [Joint.run_other]
  have created : ∀ which, s.created which ≤ (s.setRun side run).created which := by
    intro which
    unfold Joint.created
    rcases side.eq_or_other which with rfl | rfl
    · rw [Joint.run_own]
      exact Nat.le_refl _
    · rw [Joint.run_other]
  refine ⟨fun which => ?_, ⟨fun which request info member => ?_, fun which index bytes member => ?_, telling.queues.small⟩,
    telling.openings.later Onward.rfl.forth created (by simp), telling.hearings.later .rfl (by simp)⟩
  · rcases side.eq_or_other which with rfl | rfl
    · rw [Joint.run_own]
      exact (telling.carrying which).put userChannel message rfl
    · rw [Joint.run_other]
      exact (telling.carrying side.other).later .rfl
  · rw [pending] at member
    exact telling.queues.requests which request info member
  · rw [pending] at member
    exact telling.queues.unsaid which index bytes member

end Steps

section Turns
variable {PeerId W : Type} {varint : Varint} {channel : OrderedChannel varint W} {data : Side → ProtocolsData}
  {notes : List Said} {c c' : Conversation PeerId}

theorem conversation_turn {l : JointTurn W} (step : c.turn channel l = some c') :
    c.joint.turn channel.toChannel (l.within c.given) = some c'.joint ∧ c'.given = c.givenAfter channel l := by
  obtain ⟨joint, turned, rfl⟩ := Option.map_eq_some_iff.mp step
  exact ⟨turned, rfl⟩

theorem poll_telling {side : Side} {weather : W} (telling : Telling varint notes c.joint c.given)
    (sound : JointSound varint data c.joint)
    (put : ∀ side channel message, .put side channel message ∈ notes → Fits message)
    (step : c.turn channel (.poll side weather) = some c') :
    Telling varint (notes ++ c.notes channel (.poll side weather) c') c'.joint c'.given := by
  obtain ⟨turned, given⟩ := conversation_turn step
  dsimp only [JointTurn.within, Joint.turn] at turned
  dsimp only [Conversation.givenAfter, Conversation.polled] at given
  dsimp only [Conversation.notes, Conversation.polled]
  rcases polled : (c.joint.runs side).handler.poll channel.transport (c.joint.wires, c.given, weather) with ⟨result, h, w⟩
  have after := telling.polled sound put polled
  rw [polled] at given
  simp only [polled] at turned
  rw [given]
  split at turned
  · rename_i request info
    rw [← Option.some.inj turned]
    refine after.asked request info ?_
    -- a request was pending
    rcases poll_cases channel.transport (c.joint.runs side).handler (c.joint.wires, c.given, weather) with
      ⟨_, _, pending, same⟩ | ⟨_, _, _, _, same, _, outcome⟩
    · cases polled.symm.trans same
      refine telling.queues.requests side request info ?_
      rw [pending]
      exact List.mem_cons_self
    · cases polled.symm.trans same
      rcases outcome with absent | ⟨_, absent, _⟩ <;> cases absent
  · rw [← Option.some.inj turned]
    exact after

theorem answer_telling {side : Side} {id : Nat} {pieces : List Bytes} (telling : Telling varint notes c.joint c.given)
    (sound : JointSound varint data c.joint) (step : c.turn channel (.answer side id pieces) = some c') :
    Telling varint (notes ++ c.notes channel (.answer side id pieces) c') c'.joint c'.given := by
  obtain ⟨turned, given⟩ := conversation_turn step
  obtain ⟨link, at_id, turned⟩ := Option.bind_eq_some_iff.mp turned
  obtain ⟨⟨opener, unanswered, _⟩, turned⟩ := Option.ite_none_right_eq_some.mp turned
  obtain ⟨_, _, upgraded⟩ := @upgrade_outbound_reads _ varint (fun _ => (⟨id, side⟩ : Endpoint))
    ⟨pieces, [], none⟩ link.request rfl
  split at turned
  · cases turned
  · rename_i opened left ok
    obtain ⟨handshake, _, rfl⟩ := upgraded opened (by rw [ok])
    obtain ⟨run, turned, joint⟩ := Option.map_eq_some_iff.mp turned
    obtain ⟨proto, state, added, effect, applied, _⟩ := callback_turn rfl turned
    have runs : c'.joint.runs = Function.update c.joint.runs side run := by rw [← joint]; rfl
    have wires : c'.joint.wires = c.joint.wires := by rw [← joint]; rfl
    have links : c'.joint.links = c.joint.links.set id { link with answered := true } := by rw [← joint]
    have onward : Onward c.joint.links c'.joint.links :=
      links ▸ onward_set at_id ⟨rfl, rfl, rfl, fun _ accepted => accepted⟩ fun _ => rfl
    have queued : Joint.queued c.joint c'.joint side = added := by
      rw [Joint.queued, runs, Function.update_self, applied.pending, List.drop_left]
    dsimp only [Conversation.givenAfter] at given
    dsimp only [Conversation.notes]
    rw [queued, given]
    have transition := effect
    generalize before : proto.state = old at transition
    cases transition
    case outboundOpening inbound direction =>
      exact telling.opens sound at_id unanswered opener rfl rfl rfl turned applied effect before runs wires links
    all_goals
      have still := telling.called sound rfl turned applied effect (by rw [before]; rfl) runs wires onward
      simpa [Conversation.openedOf] using still

/-- Every turn keeps it. -/
theorem turn_telling {l : JointTurn W} (telling : Telling varint notes c.joint c.given)
    (sound : JointSound varint data c.joint)
    (put : ∀ side channel message, .put side channel message ∈ notes → Fits message)
    (step : c.turn channel l = some c') : Telling varint (notes ++ c.notes channel l c') c'.joint c'.given := by
  obtain ⟨turned, given⟩ := conversation_turn step
  cases l with
  | poll side weather => exact poll_telling telling sound put step
  | answer side id pieces => exact answer_telling telling sound step
  | command side message =>
    obtain ⟨run, turned, joint⟩ := Option.map_eq_some_iff.mp turned
    have quiet : ∀ callback k, (HandlerTurn.command message : HandlerTurn Endpoint (Wires × Given × W)).callback =
        some (callback, k) → Telling varint notes c'.joint c.given := by
      intro callback k made
      obtain ⟨proto, state, added, effect, applied, _⟩ := callback_turn made turned
      refine telling.called sound made turned applied effect ?_ (by rw [← joint]; rfl) (by rw [← joint]; rfl)
        (by rw [← joint]; exact .rfl)
      cases message <;> cases made <;> rfl
    rw [given]
    refine (List.append_nil notes).symm ▸ ?_
    cases message with
    | «open» k => exact quiet _ k rfl
    | close k => exact quiet _ k rfl
  | send side userChannel message =>
    rw [given, ← Option.some.inj turned]
    exact telling.put userChannel message
  | accept side id index pieces =>
    obtain ⟨link, at_id, turned⟩ := Option.bind_eq_some_iff.mp turned
    obtain ⟨proto, found, turned⟩ := Option.bind_eq_some_iff.mp turned
    obtain ⟨⟨_, unaccepted, _⟩, turned⟩ := Option.ite_none_right_eq_some.mp turned
    split at turned
    · cases turned
    · obtain ⟨run, turned, joint⟩ := Option.map_eq_some_iff.mp turned
      obtain ⟨proto, state, added, effect, applied, _⟩ := callback_turn rfl turned
      rw [given]
      refine (List.append_nil notes).symm ▸ ?_
      refine telling.called sound rfl turned applied effect rfl (by rw [← joint]; rfl) (by rw [← joint]; rfl) ?_
      rw [← joint]
      exact onward_set at_id ⟨rfl, rfl, rfl, fun index accepted => by rw [unaccepted] at accepted; cases accepted⟩
        fun answered => answered
  | fail side id =>
    obtain ⟨link, at_id, turned⟩ := Option.bind_eq_some_iff.mp turned
    obtain ⟨_, turned⟩ := Option.ite_none_right_eq_some.mp turned
    obtain ⟨run, turned, joint⟩ := Option.map_eq_some_iff.mp turned
    obtain ⟨proto, state, added, effect, applied, _⟩ := callback_turn rfl turned
    rw [given]
    refine (List.append_nil notes).symm ▸ ?_
    refine telling.called sound rfl turned applied effect rfl (by rw [← joint]; rfl) (by rw [← joint]; rfl) ?_
    rw [← joint]
    exact onward_set at_id ⟨rfl, rfl, rfl, fun _ accepted => accepted⟩ fun _ => rfl

theorem start_telling (channel : OrderedChannel varint W) (peer : Side → PeerId)
    (endpoint : Side → ConnectedPoint PeerId) : Telling varint [] (jointRuns channel.toChannel peer endpoint data).start
      fun _ => [] := by
  have closed : ∀ side (k : Nat) proto recv inbound out,
      (NotificationsHandler.new (peer side) (endpoint side) (data side) :
        NotificationsHandler PeerId Endpoint).protocols[k]? = some proto →
      proto.state ≠ .opened recv inbound (some out) := by
    rintro side (_ | _ | k) proto recv inbound out found
    · cases found
      nofun
    · cases found
      nofun
    · cases found
  refine ⟨fun side => ⟨fun k proto recv inbound out found state => ?_, nofun⟩, ⟨nofun, nofun, nofun⟩, ⟨nofun, nofun, nofun⟩,
    ⟨nofun, fun _ _ => rfl, nofun⟩⟩
  exact absurd state (closed side k proto recv inbound out found)

/-- In every run of the two sides: what a behaviour was told of from a link was
put, in this order and each at most once, by the user of the side that asked for
the link into the one channel that the link opened a protocol with. No other
link of that side has this channel, and all of it is told for the protocol that
the link was asked for. -/
theorem messages_delivered {peer : Side → PeerId} {endpoint : Side → ConnectedPoint PeerId}
    {turns : List (JointTurn W)} (run : (conversationRuns channel peer endpoint data).replay turns = some c)
    (made : (conversationRuns channel peer endpoint data).trace (Conversation.notes channel) turns = notes)
    (fit : ∀ side userChannel message, .put side userChannel message ∈ notes → Fits message) {id : Nat}
    (told : heardOn id notes ≠ []) :
    ∃ link userChannel, c.joint.links[id]? = some link ∧ .opened id userChannel ∈ notes ∧
      (heardOn id notes).Sublist (putInto link.opener userChannel notes) ∧
      (∀ other, .opened id other ∈ notes → other = userChannel) ∧
      (∀ other otherLink, c.joint.links[other]? = some otherLink → otherLink.opener = link.opener →
        .opened other userChannel ∈ notes → other = id) ∧
      ∀ index message, .heard id index message ∈ notes → index = link.info := by
  subst made
  have held : (∀ side userChannel message, .put side userChannel message ∈
        (conversationRuns channel peer endpoint data).trace (Conversation.notes channel) turns → Fits message) →
      JointSound varint data c.joint ∧
        Telling varint ((conversationRuns channel peer endpoint data).trace (Conversation.notes channel) turns) c.joint
          c.given := by
    refine Machine.trace_invariant
      (I := fun notes (c : Conversation PeerId) =>
        (∀ side userChannel message, .put side userChannel message ∈ notes → Fits message) →
          JointSound varint data c.joint ∧ Telling varint notes c.joint c.given) ?_ ?_ run
    · intro past c l c' keeps step fit
      have earlier := fun side userChannel message member => fit side userChannel message (List.mem_append_left _ member)
      obtain ⟨sound, telling⟩ := keeps earlier
      exact ⟨joint_turn_sound sound (conversation_turn step).1, turn_telling telling sound earlier step⟩
    · exact fun _ => ⟨start_sound channel.toChannel peer endpoint, start_telling channel peer endpoint⟩
  obtain ⟨_, telling⟩ := held fit
  obtain ⟨message, member⟩ := List.exists_mem_of_ne_nil _ told
  obtain ⟨index, noted⟩ := heard_noted member
  obtain ⟨link, at_id, _⟩ := telling.hearings.heard id index message noted
  obtain ⟨sent, carried⟩ := (telling.carrying link.opener).carried id link at_id rfl
  have begun := carried.given
  rw [telling.hearings.told id link at_id] at begun
  rcases carried.source with rfl | ⟨userChannel, opened, order⟩
  · exact absurd (List.prefix_nil.mp begun) told
  · refine ⟨link, userChannel, at_id, opened, begun.sublist.trans order, ?_, ?_, ?_⟩
    · exact fun other again => telling.openings.once id other userChannel again opened
    · exact fun other otherLink at_other same again =>
        telling.openings.apart other id otherLink link userChannel at_other at_id same again opened
    · intro index message noted
      obtain ⟨found, at_id', info⟩ := telling.hearings.heard id index message noted
      cases at_id.symm.trans at_id'
      exact info.symm

end Turns

/-- Both sides are on the chain with the zero hash. -/
def zeroConversations : Machine (Conversation Nat) (JointTurn Unit) :=
  conversationRuns .prompt (fun _ => 0) (fun _ => .listener [] []) fun _ => .zero

/-- Two messages are put into the channel of the one side, and the other side,
which opens its half later, reads both. -/
def deliveringTurns : List (JointTurn Unit) :=
  openingTurns ++ [answeringTurn, .send .a 1 [9], .send .a 1 [8], .poll .a (), .accept .a 1 0 [blocksFrame],
    .poll .a (), .poll .a (), .answer .b 1 [blocksFrame], .poll .b (), .poll .b (), .poll .b ()]

def deliveringNotes : List Said :=
  [.opened 0 1, .put .a 1 [9], .put .a 1 [8], .opened 1 1, .heard 0 0 [9], .heard 0 0 [8]]

theorem two_messages_delivered :
    ∃ c link userChannel, zeroConversations.replay deliveringTurns = some c ∧ c.joint.links[0]? = some link ∧
      heardOn 0 deliveringNotes = [[9], [8]] ∧
      (heardOn 0 deliveringNotes).Sublist (putInto link.opener userChannel deliveringNotes) := by
  have possible : (zeroConversations.replay deliveringTurns).isSome = true := by decide +kernel
  have noted : zeroConversations.trace (Conversation.notes .prompt) deliveringTurns = deliveringNotes := by
    decide +kernel
  obtain ⟨c, run⟩ := Option.isSome_iff_exists.mp possible
  have fit : ∀ side userChannel message, .put side userChannel message ∈ deliveringNotes → Fits message := by
    intro side userChannel message member
    have one : message = [9] ∨ message = [8] := by
      simp only [deliveringNotes, List.mem_cons, Said.put.injEq, reduceCtorEq, List.not_mem_nil, false_or, or_false] at member
      exact member.imp (·.2.2) (·.2.2)
    have short : message.length < 2 ^ 64 := by rcases one with rfl | rfl <;> decide
    exact short
  have heard : heardOn 0 deliveringNotes ≠ [] := by decide
  obtain ⟨link, userChannel, at_link, _, order, _⟩ := messages_delivered run noted fit heard
  exact ⟨c, link, userChannel, run, at_link, rfl, order⟩

end Subp2pExplorer.Notifications
