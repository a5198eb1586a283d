import Subp2pExplorer.Notifications.Agreement
import Subp2pExplorer.Notifications.CombineUpgrades
import Subp2pExplorer.Notifications.Connections
import Subp2pExplorer.Notifications.Framed

/-! The handlers of all connections with the inbound upgrades under way. A
substream is negotiated for one of the names its handler offers, its upgrade is
polled until it has read the handshake, and what it yields goes to the handler
under the index that came with the name. -/
namespace Subp2pExplorer.Notifications
open Lib Subp2pExplorer.Types

structure Negotiations (PeerId ConnectionId σ : Type) where
  system : System PeerId ConnectionId σ
  upgrades : List (ConnectionId × FutureProtocolResponse HandshakeUpgrade)

inductive NegotiationTurn (PeerId ConnectionId σ ω : Type) where
  | system (turn : SystemTurn PeerId ConnectionId σ ω)
  | negotiated (connection : ConnectionId) (socket : Socket) (info : ProtocolResponse String)
  | pollUpgrade (k : Nat) (arrival : Arrival)

section Steps
variable {PeerId ConnectionId σ ω : Type} [DecidableEq PeerId] [DecidableEq ConnectionId] (varint : Varint)
  (framed : Socket → σ) (transport : Transport σ ω)

/-- The upgrades of a closed connection are dropped. An inbound substream
reaches a handler as the result of its upgrade and no other way; an upgrade
that fails tells the handler nothing it acts on. -/
def Negotiations.turn (s : Negotiations PeerId ConnectionId σ) :
    NegotiationTurn PeerId ConnectionId σ ω → Option (Negotiations PeerId ConnectionId σ)
  | .system (.handler _ (.inbound _)) => none
  | .system (.closed connection) =>
    (s.system.turn transport (.closed connection)).map fun system =>
      ⟨system, s.upgrades.filter (·.1 ≠ connection)⟩
  | .system turn => (s.system.turn transport turn).map fun system => { s with system := system }
  | .negotiated connection socket info =>
    (s.system.connections.lookup connection).bind fun c =>
      let upgrade := CombineUpgrades.upgrade (.handshake varint framed)
      if info ∈ upgrade.protocolInfo c.run.handler.listenProtocol then
        (upgrade.upgradeInbound c.run.handler.listenProtocol socket info).map fun future =>
          { s with upgrades := s.upgrades ++ [(connection, future)] }
      else none
  | .pollUpgrade k arrival =>
    s.upgrades[k]?.bind fun (connection, future) =>
      match future.poll (.handshake varint framed) arrival with
      | (.pending, future) => some { s with upgrades := s.upgrades.set k (connection, future) }
      | (.ready (.ok protocol), _) =>
        (s.system.turn transport (.handler connection (.inbound protocol))).map fun system =>
          ⟨system, s.upgrades.eraseIdx k⟩
      | (.ready (.error _), _) => some { s with upgrades := s.upgrades.eraseIdx k }

def negotiationRuns (data : ProtocolsData) :
    Machine (Negotiations PeerId ConnectionId σ) (NegotiationTurn PeerId ConnectionId σ ω) where
  start := ⟨(notificationRuns transport data).start, []⟩
  next := Negotiations.turn varint framed transport

end Steps

/-! ## Names -/

section Names
variable {PeerId σ ω : Type} {transport : Transport σ ω}

theorem set_handshake_name (stream : HandshakeInboundSubstream σ) (handshake : Bytes) :
    (stream.setHandshake handshake).negotiatedName = stream.negotiatedName := by
  unfold HandshakeInboundSubstream.setHandshake
  split <;> rfl

/-- The name of the inbound substream a state holds. -/
def State.negotiatedName (state : State σ) : Option String :=
  state.inbound.map HandshakeInboundSubstream.negotiatedName

variable {k : Nat} {before after : State σ} {w w' : ω}

theorem send_state_name (visited : sendState transport before w = (after, w')) :
    after.negotiatedName = before.negotiatedName := by
  unfold sendState at visited
  split at visited
  all_goals
    cases visited
    rfl

theorem flush_state_name {event : Option (ToBehavior PeerId)}
    (visited : flushState transport k before w = (event, after, w')) :
    after.negotiatedName = before.negotiatedName := by
  unfold flushState at visited
  split at visited
  · split at visited
    all_goals
      cases visited
      rfl
  · cases visited
    rfl

/-- A poll may let a substream go. -/
theorem inbound_state_name {event : Option (ToBehavior PeerId)}
    (visited : pollInboundState transport k before w = (event, after, w')) :
    ∀ name ∈ after.negotiatedName, name ∈ before.negotiatedName := by
  unfold pollInboundState at visited
  split at visited
  · rename_i recv inbound outbound
    have same := @HandshakeInboundSubstream.poll_next_name _ _ transport inbound w
    split at visited
    all_goals
      rename_i polled
      rw [polled] at same
      cases visited
      simp [State.negotiatedName, State.inbound, ← same]
  · rename_i inbound pendingOpening
    have same := @HandshakeInboundSubstream.poll_process_name _ _ transport inbound w
    split at visited
    all_goals
      rename_i polled
      rw [polled] at same
      cases visited
      simp [State.negotiatedName, State.inbound, ← same]
  · rename_i inbound direction
    have same := @HandshakeInboundSubstream.poll_process_name _ _ transport inbound w
    split at visited
    all_goals
      rename_i polled
      rw [polled] at same
      cases visited
      simp [State.negotiatedName, State.inbound, ← same]
  · cases visited
    exact fun _ => id

theorem handed_name {event : ToBehavior PeerId} (handed : Handed transport k before w event after w') :
    ∀ name ∈ after.negotiatedName, name ∈ before.negotiatedName := by
  rcases handed with visited | visited
  · rw [flush_state_name visited]
    exact fun _ => id
  · exact inbound_state_name visited

/-- A callback leaves the substream that was there, or the one it brings. -/
theorem effect_name {h : NotificationsHandler PeerId σ} {proto : ProtocolDetails σ} {index : Nat}
    {callback : Callback σ} {added : List (HandlerEvent PeerId)}
    (effect : Effect h proto index callback before after added) :
    ∀ name ∈ after.negotiatedName, name ∈ before.negotiatedName ∨
      ∃ substream, callback = .inbound substream ∧ name = substream.negotiatedName := by
  cases effect <;>
    simp [State.negotiatedName, State.inbound, set_handshake_name]

end Names

/-! ## Handlers -/

def FromBehavior.index : FromBehavior → Nat
  | .open index => index
  | .close index => index

section Handlers
variable {PeerId σ ω : Type} {transport : Transport σ ω} {data : ProtocolsData}
  {protocols : List (ProtocolDetails σ)} {proto : ProtocolDetails σ} {k : Nat} {state : State σ}
  {r r' : HandlerRun PeerId σ} {l : HandlerTurn σ ω}

def ToBehavior.index : ToBehavior PeerId → Nat
  | .handshakeCompleted index _ _ _ _ => index
  | .handshakeError index => index
  | .openDesiredByRemote index => index
  | .closeDesired index => index
  | .close index => index
  | .notification index _ => index

def HandlerEvent.index : HandlerEvent PeerId → Nat
  | .notifyBehaviour event => event.index
  | .outboundSubstreamRequest _ info => info

/-- Protocols as configured, each with an inbound substream of its own name if
it holds one. -/
structure NamedProtocols (data : ProtocolsData) (protocols : List (ProtocolDetails σ)) : Prop where
  settings : protocols.map ProtocolDetails.settings = configured data
  names : ∀ proto ∈ protocols, ∀ name ∈ proto.state.negotiatedName, name = proto.name

/-- A handler that keeps its protocols as they were named, none of whose
requests and events is about another one. -/
structure Indexed (data : ProtocolsData) (r : HandlerRun PeerId σ) : Prop where
  named : NamedProtocols data r.handler.protocols
  pending : ∀ event ∈ r.handler.pendingEvents, event.index < 2
  requested : ∀ info ∈ r.requested, info < 2
  returned : ∀ event ∈ r.returned, event.index < 2

theorem NamedProtocols.length (named : NamedProtocols data protocols) : protocols.length = 2 := by
  have settings := congrArg List.length named.settings
  rw [List.length_map] at settings
  exact settings

theorem NamedProtocols.found_iff (named : NamedProtocols data protocols) : protocols[k]?.isSome ↔ k < 2 := by
  simp [named.length]

theorem NamedProtocols.named_iff (named : NamedProtocols data protocols) {name : String} :
    Named data k name ↔ ∃ proto, protocols[k]? = some proto ∧ proto.name = name := by
  rw [Named, ← named.settings, List.getElem?_map]
  cases protocols[k]? with
  | none => simp
  | some proto => simp [ProtocolDetails.settings]

theorem new_named (peer : PeerId) (endpoint : ConnectedPoint PeerId) (data : ProtocolsData) :
    NamedProtocols data (NotificationsHandler.new (σ := σ) peer endpoint data).protocols where
  settings := new_configured peer endpoint data
  names proto member := by
    rcases List.mem_cons.mp member with rfl | member
    · exact nofun
    · cases List.mem_singleton.mp member
      exact nofun

theorem set_named (named : NamedProtocols data protocols) (found : protocols[k]? = some proto)
    (names : ∀ name ∈ state.negotiatedName, name = proto.name) :
    NamedProtocols data (protocols.set k { proto with state := state }) where
  settings := (settings_set found state).trans named.settings
  names other member := by
    rcases List.mem_or_eq_of_mem_set member with earlier | rfl
    · exact named.names other earlier
    · exact names

/-- A protocol that gives up its substream or keeps it. -/
theorem kept_named (named : NamedProtocols data protocols) (found : protocols[k]? = some proto)
    (kept : ∀ name ∈ state.negotiatedName, name ∈ proto.state.negotiatedName) :
    NamedProtocols data (protocols.set k { proto with state := state }) :=
  set_named named found fun name held => named.names proto (List.mem_of_getElem? found) name (kept name held)

theorem named_kept : PollKeeps PeerId transport fun protocols (_ : ω) => NamedProtocols data protocols where
  send _ _ _ _ _ _ named found visited := kept_named named found (by rw [send_state_name visited]; exact fun _ => id)
  flush _ _ _ _ _ _ named found visited := kept_named named found (by rw [flush_state_name visited]; exact fun _ => id)
  inbound _ _ _ _ _ _ named found visited := kept_named named found (inbound_state_name visited)

theorem effect_index {h : NotificationsHandler PeerId σ} {index : Nat} {callback : Callback σ} {before after : State σ}
    {added : List (HandlerEvent PeerId)} (effect : Effect h proto index callback before after added) :
    ∀ event ∈ added, event.index = index := by
  cases effect <;> simp [HandlerEvent.index, ToBehavior.index]

theorem direct_index {event : ToBehavior PeerId} {before after : Shape} (direct : Direct k event before after) :
    event.index = k := by
  cases direct <;> rfl

/-- A callback for a protocol keeps a handler indexed, if a substream that it
brings fits. -/
theorem callback_indexed {callback : Callback σ} {index : Nat} (indexed : Indexed data r)
    (made : l.callback = some (callback, index))
    (fits : ∀ protocol, l = .inbound protocol →
      Named data protocol.index protocol.data.substream.negotiatedName)
    (step : r.turn transport l = some r') : Indexed data r' := by
  obtain ⟨proto, state, added, effect, applied, returned, requested, _⟩ := callback_turn made step
  have bound : index < 2 := indexed.named.found_iff.mp (by rw [applied.found]; rfl)
  refine ⟨?_, fun event member => ?_, fun info member => ?_, by rw [returned]; exact indexed.returned⟩
  · rw [applied.protocols]
    refine set_named indexed.named applied.found fun name held => ?_
    rcases effect_name effect name held with before | ⟨substream, rfl, rfl⟩
    · exact indexed.named.names proto (List.mem_of_getElem? applied.found) name before
    · cases l with
      | inbound protocol =>
        cases made
        obtain ⟨proto', found, named⟩ := indexed.named.named_iff.mp (fits protocol rfl)
        cases applied.found.symm.trans found
        exact named.symm
      | command message => cases message <;> cases made
      | _ => cases made
  · rw [applied.pending] at member
    rcases List.mem_append.mp member with earlier | new
    · exact indexed.pending event earlier
    · rw [effect_index effect event new]
      exact bound
  · rw [requested] at member
    split at member
    · exact indexed.requested info (List.mem_of_mem_erase member)
    · exact indexed.requested info member

/-- The swarm takes an event off the queue. -/
theorem take_indexed {event : HandlerEvent PeerId} {rest : List (HandlerEvent PeerId)} (indexed : Indexed data r)
    (pending : r.handler.pendingEvents = event :: rest) :
    Indexed data (r.take { r.handler with pendingEvents := rest } (.ready event)) := by
  have each := indexed.pending
  rw [pending] at each
  obtain ⟨now, later⟩ := List.forall_mem_cons.mp each
  cases event with
  | notifyBehaviour event =>
    refine ⟨indexed.named, later, indexed.requested, fun told member => ?_⟩
    rcases List.mem_append.mp member with earlier | last
    · exact indexed.returned told earlier
    · cases List.mem_singleton.mp last
      exact now
  | outboundSubstreamRequest protocol info =>
    exact ⟨indexed.named, later, List.forall_mem_cons.mpr ⟨now, indexed.requested⟩, indexed.returned⟩

theorem poll_indexed {w : ω} (indexed : Indexed data r) (step : r.turn transport (.poll w) = some r') :
    Indexed data r' := by
  obtain rfl : r.take (r.handler.poll transport w).2.1 (r.handler.poll transport w).1 = r' := Option.some.inj step
  cases pending : r.handler.pendingEvents with
  | cons event rest =>
    have polled : r.handler.poll transport w = (.ready event, { r.handler with pendingEvents := rest }, w) := by
      rw [NotificationsHandler.poll, pending]
    rw [polled]
    exact take_indexed indexed pending
  | nil =>
    obtain ⟨result, protocols, w', polled, outcome⟩ := poll_keeps named_kept pending indexed.named
    rw [polled]
    rcases outcome with ⟨rfl, named⟩ | ⟨event, k, proto, before, w₀, state, rfl, named, found, handed, rfl⟩
    · exact ⟨named, indexed.pending, indexed.requested, indexed.returned⟩
    · refine ⟨kept_named named found (handed_name handed), indexed.pending, indexed.requested, fun told member => ?_⟩
      rcases List.mem_append.mp member with earlier | last
      · exact indexed.returned told earlier
      · cases List.mem_singleton.mp last
        rw [direct_index (handed_view handed).1]
        exact named.found_iff.mp (by rw [found]; rfl)

theorem send_indexed {channel : Nat} {message : Bytes} (indexed : Indexed data r)
    (step : r.turn transport (.send channel message) = some r') : Indexed data r' := by
  cases step
  refine ⟨⟨?_, fun proto member => ?_⟩, indexed.pending, indexed.requested, indexed.returned⟩
  · rw [← indexed.named.settings, userSend, List.map_map]
    rfl
  · obtain ⟨before, earlier, rfl⟩ := List.mem_map.mp member
    have named := indexed.named.names before earlier
    revert named
    cases before.state with
    | _ => exact id

theorem turn_indexed (indexed : Indexed data r)
    (fits : ∀ protocol, l = .inbound protocol →
      Named data protocol.index protocol.data.substream.negotiatedName)
    (step : r.turn transport l = some r') : Indexed data r' := by
  cases made : l.callback with
  | some pair => exact callback_indexed indexed made fits step
  | none =>
    cases l with
    | poll w => exact poll_indexed indexed step
    | send channel message => exact send_indexed indexed step
    | command message => cases message <;> cases made
    | _ => cases made

/-- The names under which the protocols are offered. -/
theorem listen_protocol_info {varint : Varint} {framed : Socket → σ} {h : NotificationsHandler PeerId σ}
    (named : NamedProtocols data h.protocols) (info : ProtocolResponse String) :
    info ∈ (CombineUpgrades.upgrade (.handshake varint framed)).protocolInfo h.listenProtocol ↔
      Named data info.index info.data := by
  rw [protocol_info_iff, named.named_iff, NotificationsHandler.listenProtocol, List.getElem?_map]
  cases found : h.protocols[info.index]? with
  | none => simp
  | some proto =>
    have listed : (configured data)[info.index]? = some (proto.name, proto.handshake, proto.upgrade) := by
      rw [← named.settings, List.getElem?_map, found]
      rfl
    simp [InboundUpgrade.handshake, configured_upgrade listed, eq_comm]

/-- No two protocols have one name. -/
theorem names_distinct (named : NamedProtocols data protocols) : (protocols.map ProtocolDetails.name).Nodup := by
  have at_name : ∀ i name, (protocols.map ProtocolDetails.name)[i]? = some name → Named data i name := by
    intro i name found
    rw [List.getElem?_map, Option.map_eq_some_iff] at found
    exact named.named_iff.mpr found
  rw [List.nodup_iff_getElem?_ne_getElem?]
  intro i j earlier within same
  have found := List.getElem?_eq_getElem within
  exact Nat.ne_of_lt earlier (named_same (at_name i _ (same.trans found)) (at_name j _ found))

end Handlers

/-! ## Runs -/

section Systems
variable {PeerId ConnectionId σ ω : Type} {transport : Transport σ ω} {data : ProtocolsData}
  {s s' : System PeerId ConnectionId σ} {connection : ConnectionId} {c : Connection PeerId σ}

/-- What a callback makes of a behaviour: more commands, all about the two protocols. -/
structure Asks (b b' : Notifications PeerId ConnectionId) : Prop where
  data : b'.data = b.data
  commands : ∀ peer connection message, .notifyHandler peer connection message ∈ b'.events →
    .notifyHandler peer connection message ∈ b.events ∨ message.index < 2

theorem on_connection_handler_event_asks (b : Notifications PeerId ConnectionId) (peer : PeerId)
    (connection : ConnectionId) {event : ToBehavior PeerId} (bound : event.index < 2) :
    Asks b (b.onConnectionHandlerEvent peer connection event) := by
  have queued : ∀ request, (∀ peer connection message, request = .notifyHandler peer connection message →
      message.index < 2) → Asks b (b.propagateEvent request) := by
    intro request about
    refine ⟨rfl, fun other id message member => ?_⟩
    rcases List.mem_append.mp member with earlier | last
    · exact .inl earlier
    · exact .inr (about other id message (List.mem_singleton.mp last).symm)
  cases event with
  | handshakeError index => exact ⟨rfl, fun _ _ _ => .inl⟩
  | close index => exact ⟨rfl, fun _ _ _ => .inl⟩
  | openDesiredByRemote index =>
    refine queued _ fun _ _ message same => ?_
    cases same
    exact bound
  | closeDesired index =>
    refine queued _ fun _ _ message same => ?_
    cases same
    exact bound
  | handshakeCompleted index endpoint handshake isInbound sender => exact queued _ nofun
  | notification index bytes => exact queued _ nofun

/-- The indices that the behaviour has hard-coded. -/
theorem notify_protocols_asks (b : Notifications PeerId ConnectionId) (peer : PeerId) (connection : ConnectionId)
    (command : Nat → FromBehavior) (own : ∀ index, (command index).index = index) :
    Asks b (b.notifyProtocols peer connection command) := by
  refine ⟨rfl, fun other id message member => ?_⟩
  have events : (b.notifyProtocols peer connection command).events =
      b.events ++ [.notifyHandler peer connection (command 0), .notifyHandler peer connection (command 1)] :=
    List.append_assoc b.events _ _
  rw [events, List.mem_append] at member
  refine member.imp_right fun added => ?_
  simp only [List.mem_cons, List.not_mem_nil, or_false, ToSwarm.notifyHandler.injEq] at added
  rcases added with ⟨-, -, rfl⟩ | ⟨-, -, rfl⟩
  all_goals
    rw [own]
    omega

variable [DecidableEq ConnectionId]

/-- The data of the behaviour is what its handlers are configured with, and
every command on its way is about one of the two protocols. -/
structure Bounded (data : ProtocolsData) (s : System PeerId ConnectionId σ) : Prop where
  configures : s.behaviour.data = data
  commands : ∀ peer connection message, .notifyHandler peer connection message ∈ s.behaviour.events →
    message.index < 2
  connections : ∀ connection c, s.connections.lookup connection = some c →
    Indexed data c.run ∧ ∀ message ∈ c.commands, message.index < 2

theorem observe_bounded {b : Notifications PeerId ConnectionId} (bounded : Bounded data s) (asks : Asks s.behaviour b) :
    Bounded data (s.observe connection b) where
  configures := asks.data.trans bounded.configures
  commands peer other message member := by
    rcases asks.commands peer other message member with earlier | bound
    · exact bounded.commands _ _ _ earlier
    · exact bound
  connections := bounded.connections

theorem set_bounded (bounded : Bounded data s) (indexed : Indexed data c.run)
    (commands : ∀ message ∈ c.commands, message.index < 2) : Bounded data (s.setConnection connection c) where
  configures := bounded.configures
  commands := bounded.commands
  connections other d held := by
    rcases Finmap.inserted_entry held with ⟨-, rfl⟩ | ⟨-, before⟩
    · exact ⟨indexed, commands⟩
    · exact bounded.connections other d before

theorem send_command_bounded {message : FromBehavior} (bounded : Bounded data s) (bound : message.index < 2) :
    Bounded data (s.sendCommand connection message) := by
  unfold System.sendCommand
  cases found : s.connections.lookup connection with
  | none => exact bounded
  | some c =>
    obtain ⟨indexed, commands⟩ := bounded.connections connection c found
    refine set_bounded bounded indexed fun other member => ?_
    rcases List.mem_append.mp member with earlier | last
    · exact commands other earlier
    · cases List.mem_singleton.mp last
      exact bound

theorem new_indexed (peer : PeerId) (endpoint : ConnectedPoint PeerId) (data : ProtocolsData) :
    Indexed data (⟨.new peer endpoint data, [], []⟩ : HandlerRun PeerId σ) :=
  ⟨new_named peer endpoint data, nofun, nofun, nofun⟩

variable [DecidableEq PeerId]

theorem on_swarm_event_asks (b : Notifications PeerId ConnectionId) (event : FromSwarm PeerId ConnectionId) :
    Asks b (b.onSwarmEvent event) := by
  cases event with
  | connectionEstablished peer connection =>
    obtain ⟨data, commands⟩ := notify_protocols_asks
      { b with peersDetails := b.peersDetails.upsert peer (fun entry => insert connection entry) {connection} }
      peer connection .open fun _ => rfl
    exact ⟨data, commands⟩
  | connectionClosed peer connection =>
    unfold Notifications.onSwarmEvent
    dsimp only
    cases b.peersDetails.lookup peer with
    | none => exact notify_protocols_asks b peer connection .close fun _ => rfl
    | some details =>
      obtain ⟨data, commands⟩ := notify_protocols_asks
        { b with peersDetails := b.peersDetails.insert peer (details.erase connection) } peer connection .close
        fun _ => rfl
      exact ⟨data, commands⟩
  | other => exact ⟨rfl, fun _ _ _ => .inl⟩

/-- A turn keeps the bounds if an inbound substream it delivers was negotiated
under the name of its protocol. -/
theorem turn_bounded {l : SystemTurn PeerId ConnectionId σ ω} (bounded : Bounded data s)
    (fits : ∀ connection protocol, l = .handler connection (.inbound protocol) →
      Named data protocol.index protocol.data.substream.negotiatedName)
    (step : s.turn transport l = some s') : Bounded data s' := by
  cases l with
  | established connection peer endpoint =>
    obtain ⟨-, rfl⟩ := established_turn step
    have asks := on_swarm_event_asks s.behaviour (.connectionEstablished peer connection)
    obtain ⟨configures, commands, connections⟩ := @observe_bounded _ _ _ _ _ connection _ _ bounded asks
    refine set_bounded ⟨configures, commands, connections⟩ ?_ (List.forall_mem_nil _)
    rw [bounded.configures]
    exact new_indexed peer endpoint data
  | closed connection =>
    obtain ⟨c, -, rfl⟩ := Option.map_eq_some_iff.mp step
    have asks := on_swarm_event_asks s.behaviour (.connectionClosed c.peer connection)
    obtain ⟨configures, commands, connections⟩ := @observe_bounded _ _ _ _ _ connection _ _ bounded asks
    exact ⟨configures, commands, fun other d held => connections other d (Finmap.erased_entry held).2⟩
  | pollBehaviour =>
    rcases poll_behaviour_turn step with rfl | ⟨event, rest, pending, handed⟩
    · exact bounded
    · have each := bounded.commands
      rw [pending] at each
      have taken : Bounded data { s with behaviour := { s.behaviour with events := rest } } :=
        ⟨bounded.configures, fun _ _ _ member => each _ _ _ (List.mem_cons_of_mem _ member), bounded.connections⟩
      rcases handed with ⟨told, rfl, rfl⟩ | ⟨peer, other, message, rfl, rfl⟩
      · exact taken
      · exact send_command_bounded taken (each _ _ _ List.mem_cons_self)
  | command connection =>
    obtain ⟨c, message, rest, run, found, queue, taken, rfl⟩ := command_turn step
    obtain ⟨indexed, commands⟩ := bounded.connections connection c found
    rw [queue] at commands
    have stepped := turn_indexed indexed (fun protocol same => by cases same) taken
    exact set_bounded bounded stepped (List.forall_mem_cons.mp commands).2
  | deliver connection =>
    obtain ⟨c, found, step⟩ := Option.bind_eq_some_iff.mp step
    obtain ⟨event, next, rfl⟩ := Option.map_eq_some_iff.mp step
    obtain ⟨indexed, commands⟩ := bounded.connections connection c found
    have bound := indexed.returned event (List.mem_of_getElem? next)
    exact set_bounded (observe_bounded bounded (on_connection_handler_event_asks _ _ _ bound)) indexed commands
  | handler connection turn =>
    obtain ⟨-, c, run, found, taken, rfl⟩ := handler_turn step
    obtain ⟨indexed, commands⟩ := bounded.connections connection c found
    have stepped := turn_indexed indexed (fun protocol same => fits connection protocol (congrArg _ same)) taken
    exact set_bounded bounded stepped commands

end Systems

section Runs
variable {PeerId ConnectionId σ ω : Type} [DecidableEq PeerId] [DecidableEq ConnectionId] {varint : Varint}
  {framed : Socket → σ} {transport : Transport σ ω} {data : ProtocolsData} {s s' t : Negotiations PeerId ConnectionId σ}

/-- Every upgrade under way was negotiated under the name of the protocol it is for. -/
structure Negotiated (data : ProtocolsData) (s : Negotiations PeerId ConnectionId σ) : Prop where
  bounded : Bounded data s.system
  upgrades : ∀ connection future, (connection, future) ∈ s.upgrades →
    Named data future.index future.data.negotiatedName

/-- A turn of the system drops upgrades at most, and delivers no inbound substream. -/
theorem system_turn_cases {l : SystemTurn PeerId ConnectionId σ ω}
    (step : s.turn varint framed transport (.system l) = some s') :
    s.system.turn transport l = some s'.system ∧ (∀ entry ∈ s'.upgrades, entry ∈ s.upgrades) ∧
      ∀ connection protocol, l ≠ .handler connection (.inbound protocol) := by
  cases l with
  | closed connection =>
    obtain ⟨system, stepped, rfl⟩ := Option.map_eq_some_iff.mp step
    exact ⟨stepped, fun entry member => (List.mem_filter.mp member).1, nofun⟩
  | handler connection turn =>
    cases turn with
    | inbound protocol => cases step
    | command message => cases step
    | _ =>
      obtain ⟨system, stepped, rfl⟩ := Option.map_eq_some_iff.mp step
      exact ⟨stepped, fun _ => id, by simp⟩
  | _ =>
    obtain ⟨system, stepped, rfl⟩ := Option.map_eq_some_iff.mp step
    exact ⟨stepped, fun _ => id, by simp⟩

theorem turn_negotiated {l : NegotiationTurn PeerId ConnectionId σ ω} (negotiated : Negotiated data s)
    (step : s.turn varint framed transport l = some s') : Negotiated data s' := by
  cases l with
  | system turn =>
    obtain ⟨stepped, fewer, other⟩ := system_turn_cases step
    refine ⟨turn_bounded negotiated.bounded (fun connection protocol same => absurd same (other _ _)) stepped, ?_⟩
    exact fun connection future member => negotiated.upgrades connection future (fewer _ member)
  | negotiated connection socket info =>
    obtain ⟨c, found, step⟩ := Option.bind_eq_some_iff.mp step
    obtain ⟨offered, step⟩ := Option.ite_none_right_eq_some.mp step
    obtain ⟨future, begun, rfl⟩ := Option.map_eq_some_iff.mp step
    have named := (negotiated.bounded.connections connection c found).1.named
    obtain ⟨-, protocol, -, -, runs, -⟩ := offered_runs offered
    rw [runs] at begun
    cases begun
    refine ⟨negotiated.bounded, fun other future member => ?_⟩
    rcases List.mem_append.mp member with earlier | last
    · exact negotiated.upgrades other future earlier
    · cases List.mem_singleton.mp last
      exact (listen_protocol_info named info).mp offered
  | pollUpgrade k arrival =>
    obtain ⟨⟨connection, future⟩, under_way, step⟩ := Option.bind_eq_some_iff.mp step
    have named := negotiated.upgrades connection future (List.mem_of_getElem? under_way)
    have others : ∀ other later, (other, later) ∈ s.upgrades.eraseIdx k →
        Named data later.index later.data.negotiatedName := fun other later member =>
      negotiated.upgrades other later (List.mem_of_mem_eraseIdx member)
    dsimp only at step
    rcases polled : future.poll (.handshake varint framed) arrival with ⟨(error | protocol) | _, later⟩
    all_goals
      obtain ⟨index, name, opens⟩ := combined_upgrade_poll polled
      rw [polled] at step
    · cases step
      exact ⟨negotiated.bounded, others⟩
    · obtain ⟨system, stepped, rfl⟩ := Option.map_eq_some_iff.mp step
      refine ⟨turn_bounded negotiated.bounded (fun _ _ same => ?_) stepped, others⟩
      cases same
      obtain ⟨same_index, same_name⟩ := opens protocol rfl
      rw [same_index, same_name]
      exact named
    · cases step
      refine ⟨negotiated.bounded, fun other after member => ?_⟩
      rcases List.mem_or_eq_of_mem_set member with earlier | polled
      · exact negotiated.upgrades other after earlier
      · cases polled
        rw [index, name]
        exact named

theorem run_negotiated {turns : List (NegotiationTurn PeerId ConnectionId σ ω)}
    (run : (negotiationRuns varint framed transport data).replay turns = some t) : Negotiated data t := by
  refine Machine.invariant (fun s l s' negotiated step => turn_negotiated negotiated step) ?_ run
  exact ⟨⟨rfl, nofun, nofun⟩, nofun⟩

variable (varint framed) in
/-- A connection whose handler has a protocol for every index that it can be
called with next, and holds every inbound substream under its name. -/
structure WellIndexed (s : Negotiations PeerId ConnectionId σ) (connection : ConnectionId) (c : Connection PeerId σ) :
    Prop where
  distinct : (c.run.handler.protocols.map ProtocolDetails.name).Nodup
  commands : ∀ message ∈ c.commands, (c.run.handler.onBehaviourEvent message).isSome
  outbound : ∀ info ∈ c.run.requested, ∀ opened,
    (c.run.handler.onConnectionEvent (.fullyNegotiatedOutbound opened info)).isSome
  failed : ∀ info ∈ c.run.requested, (c.run.handler.onConnectionEvent (.dialUpgradeError info)).isSome
  offered : ∀ info ∈ (CombineUpgrades.upgrade (.handshake varint framed)).protocolInfo c.run.handler.listenProtocol,
    ∃ proto, c.run.handler.protocols[info.index]? = some proto ∧ proto.name = info.data ∧
      Runs (.handshake varint framed) c.run.handler.listenProtocol info proto.upgrade
  inbound : ∀ future, (connection, future) ∈ s.upgrades → ∀ arrival protocol later,
    future.poll (.handshake varint framed) arrival = (.ready (.ok protocol), later) →
      (∃ proto, c.run.handler.protocols[protocol.index]? = some proto ∧
        proto.name = future.data.negotiatedName ∧ protocol.data.substream.negotiatedName = proto.name) ∧
      (c.run.handler.onConnectionEvent (.fullyNegotiatedInbound protocol)).isSome
  stored : ∀ proto ∈ c.run.handler.protocols, ∀ inbound, proto.state.inbound = some inbound →
    inbound.negotiatedName = proto.name

omit [DecidableEq PeerId] in
theorem negotiated_well_indexed {connection : ConnectionId} {c : Connection PeerId σ} (negotiated : Negotiated data t)
    (found : t.system.connections.lookup connection = some c) : WellIndexed varint framed t connection c := by
  obtain ⟨indexed, commands⟩ := negotiated.bounded.connections connection c found
  have named := indexed.named
  refine ⟨names_distinct named, fun message member => ?_, fun info member opened => ?_, fun info member => ?_,
    fun info offered => ?_, fun future under_way arrival protocol later polled => ?_,
    fun proto member inbound held => ?_⟩
  · have present := named.found_iff.mpr (commands message member)
    cases message with
    | «open» index => exact Option.isSome_map.trans present
    | close index => exact Option.isSome_map.trans present
  · exact Option.isSome_map.trans (named.found_iff.mpr (indexed.requested info member))
  · exact Option.isSome_map.trans (named.found_iff.mpr (indexed.requested info member))
  · obtain ⟨proto, at_index, name⟩ := named.named_iff.mp ((listen_protocol_info named info).mp offered)
    obtain ⟨-, protocol, runs⟩ := offered_runs offered
    refine ⟨proto, at_index, name, ?_⟩
    have listed := runs.1
    rw [NotificationsHandler.listenProtocol, List.getElem?_map, at_index] at listed
    cases listed
    exact runs
  · obtain ⟨-, -, opens⟩ := combined_upgrade_poll polled
    obtain ⟨index, name⟩ := opens protocol rfl
    obtain ⟨proto, at_index, same⟩ := named.named_iff.mp (negotiated.upgrades connection future under_way)
    rw [← index] at at_index
    refine ⟨⟨proto, at_index, same, name.trans same.symm⟩, Option.isSome_map.trans ?_⟩
    rw [at_index]
    rfl
  · exact named.names proto member _ (by rw [State.negotiatedName, held]; rfl)

/-- Whatever a list of upgrades advertises leads back to the upgrade that
advertised it; in every run every index a handler is called with is one of its
protocols, and inbound substreams are held where their names are. -/
theorem upgrades_indexed {T Info Sock Fut Out Err W : Type} (U : InboundUpgrade T Info Sock Fut Out Err W)
    (combined : CombineUpgrades T) {turns : List (NegotiationTurn PeerId ConnectionId σ ω)}
    (run : (negotiationRuns varint framed transport data).replay turns = some t) :
    (∀ info ∈ (CombineUpgrades.upgrade U).protocolInfo combined,
      info.index < combined.list.length ∧ ∃ protocol, Runs U combined info protocol) ∧
    ∀ connection c, t.system.connections.lookup connection = some c → WellIndexed varint framed t connection c :=
  ⟨fun _ offered => offered_runs offered, fun _ _ found => negotiated_well_indexed (run_negotiated run) found⟩

end Runs

section Samples

/-- The name of the block announces protocol on the chain with the zero hash. -/
def zeroBlocks : String := "/" ++ hexEncode (List.replicate 32 0) ++ "/block-announces/1"

/-- The remote opens a substream under the first name; its handshake comes in
two pieces, and the handler tells of it. -/
def remoteNegotiating : List (NegotiationTurn Nat Nat Unit Bool) :=
  [.system (.established 0 7 (.listener [] [])), .negotiated 0 ⟨[], [], none⟩ ⟨zeroBlocks, 0⟩,
    .pollUpgrade 0 ⟨[[1]], true⟩, .pollUpgrade 0 ⟨[[4]], false⟩, .system (.handler 0 (.poll true))]

theorem remote_negotiating_indexed : ∃ (t : Negotiations Nat Nat Unit) (c : Connection Nat Unit),
    (negotiationRuns .leb128 (fun _ => ()) .flushing .zero).replay remoteNegotiating = some t ∧
      t.system.connections.lookup 0 = some c ∧
      c.run.handler.protocols[0]?.bind (fun proto => proto.state.negotiatedName) = some zeroBlocks ∧
      WellIndexed .leb128 (fun _ => ()) t 0 c ∧
      ⟨"/b", 1⟩ ∈ (CombineUpgrades.upgrade (.handshake .leb128 fun _ => ())).protocolInfo ⟨[⟨"/a"⟩, ⟨"/b"⟩]⟩ ∧
      ∃ protocol, Runs (.handshake .leb128 fun _ => ()) ⟨[⟨"/a"⟩, ⟨"/b"⟩]⟩ ⟨"/b", 1⟩ protocol := by
  have state : ((negotiationRuns .leb128 (fun _ => ()) .flushing .zero).replay remoteNegotiating).bind
      (fun t : Negotiations Nat Nat Unit => (t.system.connections.lookup 0).bind fun c =>
        c.run.handler.protocols[0]?.bind fun proto => proto.state.negotiatedName) = some zeroBlocks := by
    decide +kernel
  obtain ⟨t, run, state⟩ := Option.bind_eq_some_iff.mp state
  obtain ⟨c, found, state⟩ := Option.bind_eq_some_iff.mp state
  have offered : (⟨"/b", 1⟩ : ProtocolResponse String) ∈
      (CombineUpgrades.upgrade (.handshake .leb128 fun _ => ())).protocolInfo ⟨[⟨"/a"⟩, ⟨"/b"⟩]⟩ := by decide
  obtain ⟨runs, indexed⟩ := upgrades_indexed (.handshake .leb128 fun _ => ()) ⟨[⟨"/a"⟩, ⟨"/b"⟩]⟩ run
  exact ⟨t, c, run, found, state, indexed 0 c found, offered, (runs _ offered).2⟩

end Samples

end Subp2pExplorer.Notifications
