import Subp2pExplorer.Notifications.Journal

/-! The states of a protocol that only the behaviour can end. While a handler
is in one of them, the event that tells of it or the command that ends it is
still on its way, between the queue of the handler and that of the behaviour. -/
namespace Subp2pExplorer.Notifications
open Lib

/-- A shape that waits for the behaviour: the event that tells of it, the
command that ends it, and what makes these belong together. -/
structure Waiting (PeerId ConnectionId σ : Type) where
  shape : Shape
  event : Nat → ToBehavior PeerId
  command : Nat → FromBehavior
  told : ∀ {h : NotificationsHandler PeerId σ} {proto index callback before after added},
    Effect h proto index callback before after added → after.shape = shape →
      before.shape = shape ∨ event index ∈ added.filterMap HandlerEvent.told
  polled : ∀ {k handed before after}, Direct k handed before after → after = shape →
    before = shape ∨ handed = event k
  ended : ∀ {h h' : NotificationsHandler PeerId σ} {index},
    h.onBehaviourEvent (command index) = some h' → h'.shape index ≠ some shape
  answered : ∀ (b : Notifications PeerId ConnectionId) (peer : PeerId) (connection : ConnectionId) (index : Nat),
    b.onConnectionHandlerEvent peer connection (event index) =
      b.propagateEvent (.notifyHandler peer connection (command index))
  unopened : shape ≠ .closed

section Kinds
variable {PeerId ConnectionId σ : Type}

private theorem command_shape {h h' : NotificationsHandler PeerId σ} {proto : ProtocolDetails σ} {index : Nat}
    {state : State σ} {added : List (HandlerEvent PeerId)} (applied : Applied h h' proto index state added) :
    h'.shape index = some state.shape :=
  (set_reshaped .rfl applied.found applied.protocols).after

/-- The remote waits for us to open. -/
def remoteWaiting : Waiting PeerId ConnectionId σ where
  shape := .openDesiredByRemote
  event := .openDesiredByRemote
  command := .open
  told effect after := by
    cases effect <;> simp_all [State.shape, HandlerEvent.told]
  polled direct after := by
    cases direct <;> simp_all
  ended taken := by
    obtain ⟨proto, found, rfl⟩ := Option.map_eq_some_iff.mp taken
    obtain ⟨state, added, effect, applied⟩ := NotificationsHandler.open_protocol_effect found
    rw [command_shape applied]
    cases proto
    dsimp only at effect
    cases effect <;> simp [State.shape]
  answered _ _ _ _ := rfl
  unopened := by simp

/-- A protocol whose substream failed waits for us to close. -/
def failedWaiting : Waiting PeerId ConnectionId σ where
  shape := .opened false
  event := .closeDesired
  command := .close
  told effect after := by
    cases effect <;> simp_all [State.shape]
  polled direct after := by
    cases direct <;> simp_all
  ended taken := by
    obtain ⟨proto, found, rfl⟩ := Option.map_eq_some_iff.mp taken
    obtain ⟨state, added, effect, applied⟩ := NotificationsHandler.close_protocol_effect found
    rw [command_shape applied]
    cases proto
    dsimp only at effect
    cases effect <;> simp [State.shape]
  answered _ _ _ _ := rfl
  unopened := by simp

end Kinds

section Steps
variable {PeerId ConnectionId σ ω : Type} {transport : Transport σ ω} (waiting : Waiting PeerId ConnectionId σ)

/-- An event of a handler not yet delivered, or its answer not yet taken. -/
def Underway (s : System PeerId ConnectionId σ) (connection : ConnectionId) (c : Connection PeerId σ)
    (event : ToBehavior PeerId) (command : FromBehavior) : Prop :=
  HandlerEvent.notifyBehaviour event ∈ c.run.handler.pendingEvents ∨ event ∈ c.run.returned.drop c.delivered ∨
    .notifyHandler c.peer connection command ∈ s.behaviour.events ∨ command ∈ c.commands

/-- A connection all of whose waiting protocols are on someone's list. -/
structure Unstuck (s : System PeerId ConnectionId σ) (connection : ConnectionId) (c : Connection PeerId σ) :
    Prop where
  delivered : c.delivered ≤ c.run.returned.length
  underway : ∀ i, c.run.handler.shape i = some waiting.shape →
    Underway s connection c (waiting.event i) (waiting.command i)

def AllUnstuck [DecidableEq ConnectionId] (s : System PeerId ConnectionId σ) : Prop :=
  ∀ connection c, s.connections.lookup connection = some c → Unstuck waiting s connection c

variable {waiting} {s s' : System PeerId ConnectionId σ} {connection : ConnectionId} {c : Connection PeerId σ}

/-- What a handler has not had delivered is the rest of its journal. -/
theorem undelivered_iff (delivered : c.delivered ≤ c.run.returned.length) (event : ToBehavior PeerId) :
    (HandlerEvent.notifyBehaviour event ∈ c.run.handler.pendingEvents ∨ event ∈ c.run.returned.drop c.delivered) ↔
      event ∈ c.run.journal.drop c.delivered := by
  rw [HandlerRun.journal, List.drop_append_of_le_length delivered, List.mem_append, List.mem_filterMap, or_comm]
  refine or_congr_right ⟨fun pending => ⟨_, pending, rfl⟩, ?_⟩
  rintro ⟨pending, member, told⟩
  cases pending with
  | notifyBehaviour other =>
    cases told
    exact member
  | outboundSubstreamRequest protocol info => cases told

theorem underway_iff (delivered : c.delivered ≤ c.run.returned.length) (event : ToBehavior PeerId)
    (command : FromBehavior) :
    Underway s connection c event command ↔ event ∈ c.run.journal.drop c.delivered ∨
      .notifyHandler c.peer connection command ∈ s.behaviour.events ∨ command ∈ c.commands := by
  rw [← undelivered_iff delivered, Underway, or_assoc]

/-- A protocol comes to wait only with the event that tells of it. -/
theorem turn_tells {r r' : HandlerRun PeerId σ} {l : HandlerTurn σ ω} {i : Nat}
    (step : r.turn transport l = some r') (waits : r'.handler.shape i = some waiting.shape) :
    r.handler.shape i = some waiting.shape ∨ waiting.event i ∈ produced r l r' := by
  cases made : l.callback with
  | some pair =>
    obtain ⟨callback, index⟩ := pair
    obtain ⟨proto, state, added, effect, reshaped, same, _⟩ := callback_produced made step
    by_cases own : i = index
    · subst own
      rw [reshaped.after, Option.some.injEq] at waits
      rw [reshaped.before, same, Option.some.injEq]
      exact waiting.told effect waits
    · rw [← reshaped.others i own]
      exact .inl waits
  | none =>
    rcases quiet_produced made step with
      ⟨shape, _, _⟩ | ⟨k, event, before, after, direct, reshaped, _, same, _⟩
    · rw [← shape]
      exact .inl waits
    · by_cases own : i = k
      · subst own
        rw [reshaped.after, Option.some.injEq] at waits
        rw [reshaped.before, same, Option.some.injEq]
        rcases waiting.polled direct waits with before | rfl
        · exact .inl before
        · exact .inr List.mem_cons_self
      · rw [← reshaped.others i own]
        exact .inl waits

/-- A turn of the handler keeps what is underway; a command it takes ended the
wait that the command was for. -/
theorem turn_unstuck {run : HandlerRun PeerId σ} {l : HandlerTurn σ ω} {commands : List FromBehavior}
    {closedOpen : List Nat} (unstuck : Unstuck waiting s connection c)
    (step : c.run.turn transport l = some run)
    (taken : ∀ command ∈ c.commands, command ∈ commands ∨ l = .command command) :
    Unstuck waiting s connection { c with run := run, commands := commands, closedOpen := closedOpen } := by
  have journal := turn_journal step
  have delivered : c.delivered ≤ run.returned.length := by
    obtain ⟨more, returned⟩ := turn_returned step
    rw [returned, List.length_append]
    exact Nat.le_add_right_of_le unstuck.delivered
  refine ⟨delivered, fun i waits => ?_⟩
  rw [underway_iff (c := { c with run := run, commands := commands, closedOpen := closedOpen }) delivered]
  dsimp only
  have within : c.delivered ≤ c.run.journal.length := by
    rw [HandlerRun.journal, List.length_append]
    exact Nat.le_add_right_of_le unstuck.delivered
  rw [journal, List.drop_append_of_le_length within, List.mem_append]
  rcases turn_tells step waits with before | tells
  · rcases (underway_iff unstuck.delivered _ _).mp (unstuck.underway i before) with event | answer | command
    · exact .inl (.inl event)
    · exact .inr (.inl answer)
    · rcases taken _ command with kept | rfl
      · exact .inr (.inr kept)
      · obtain ⟨h, ended, rfl⟩ := Option.map_eq_some_iff.mp step
        exact absurd waits (waiting.ended ended)
  · exact .inl (.inr tells)

/-- While the behaviour keeps its commands, everything stays underway. -/
theorem unstuck_mono (unstuck : Unstuck waiting s connection c)
    (more : ∀ message, .notifyHandler c.peer connection message ∈ s.behaviour.events →
      .notifyHandler c.peer connection message ∈ s'.behaviour.events) : Unstuck waiting s' connection c := by
  refine ⟨unstuck.delivered, fun i waits => ?_⟩
  rcases unstuck.underway i waits with pending | returned | answer | command
  · exact .inl pending
  · exact .inr (.inl returned)
  · exact .inr (.inr (.inl (more _ answer)))
  · exact .inr (.inr (.inr command))

variable [DecidableEq ConnectionId]

/-- One connection is written; the events of the behaviour only grow. -/
theorem set_unstuck (all : AllUnstuck waiting s)
    (more : ∀ event ∈ s.behaviour.events, event ∈ s'.behaviour.events)
    (connections : s'.connections = s.connections.insert connection c)
    (unstuck : Unstuck waiting s' connection c) : AllUnstuck waiting s' := by
  intro other d held
  rw [connections] at held
  rcases Finmap.inserted_entry held with ⟨rfl, rfl⟩ | ⟨-, before⟩
  · exact unstuck
  · exact unstuck_mono (all other d before) fun _ => more _

/-- The behaviour's next command goes to its connection, if that is there. -/
theorem send_unstuck {rest : List (ToSwarm PeerId ConnectionId)} {peer : PeerId} {message : FromBehavior}
    (all : AllUnstuck waiting s)
    (next : s.behaviour.events = .notifyHandler peer connection message :: rest) :
    AllUnstuck waiting
      ({ s with behaviour := { s.behaviour with events := rest } }.sendCommand connection message) := by
  have moved : ∀ s' : System PeerId ConnectionId σ, s'.behaviour.events = rest → ∀ other d,
      s.connections.lookup other = some d → ∀ commands, (∀ command ∈ d.commands, command ∈ commands) →
      (other = connection → message ∈ commands) → Unstuck waiting s' other { d with commands := commands } := by
    intro s' events other d held commands more sent
    have unstuck := all other d held
    refine ⟨unstuck.delivered, fun i waits => ?_⟩
    rcases unstuck.underway i waits with pending | returned | answer | command
    · exact .inl pending
    · exact .inr (.inl returned)
    · rw [next] at answer
      rcases List.mem_cons.mp answer with head | answer
      · cases head
        exact .inr (.inr (.inr (sent rfl)))
      · exact .inr (.inr (.inl (events ▸ answer)))
    · exact .inr (.inr (.inr (more _ command)))
  unfold System.sendCommand
  dsimp only
  split
  · rename_i c found
    intro other d held
    rcases Finmap.inserted_entry held with ⟨rfl, rfl⟩ | ⟨same, before⟩
    · apply moved _ rfl other c found
      · exact fun command member => List.mem_append_left _ member
      · exact fun _ => List.mem_append_right _ List.mem_cons_self
    · exact moved _ rfl other d before d.commands (fun _ => id) fun equal => absurd equal same
  · rename_i absent
    intro other d held
    refine moved _ rfl other d held d.commands (fun _ => id) ?_
    rintro rfl
    rw [absent] at held
    cases held

omit [DecidableEq ConnectionId] in
theorem on_connection_handler_event_keeps (b : Notifications PeerId ConnectionId) (peer : PeerId)
    (event : ToBehavior PeerId) :
    ∀ request ∈ b.events, request ∈ (b.onConnectionHandlerEvent peer connection event).events := by
  intro request member
  cases event with
  | handshakeError index => exact member
  | close index => exact member
  | _ => exact List.mem_append_left _ member

omit [DecidableEq ConnectionId] in
/-- The behaviour answers the event it is delivered. -/
theorem deliver_unstuck {event : ToBehavior PeerId} (unstuck : Unstuck waiting s connection c)
    (next : c.run.returned[c.delivered]? = some event)
    (behaviour : s'.behaviour = s.behaviour.onConnectionHandlerEvent c.peer connection event) :
    Unstuck waiting s' connection { c with delivered := c.delivered + 1 } := by
  obtain ⟨within, same⟩ := List.getElem?_eq_some_iff.mp next
  refine ⟨within, fun i waits => ?_⟩
  have keeps := @on_connection_handler_event_keeps _ _ connection s.behaviour c.peer event
  rw [← behaviour] at keeps
  rcases unstuck.underway i waits with pending | returned | answer | command
  · exact .inl pending
  · rw [List.drop_eq_getElem_cons within, same] at returned
    rcases List.mem_cons.mp returned with rfl | returned
    · refine .inr (.inr (.inl ?_))
      rw [behaviour, waiting.answered]
      exact List.mem_append_right _ List.mem_cons_self
    · exact .inr (.inl returned)
  · exact .inr (.inr (.inl (keeps _ answer)))
  · exact .inr (.inr (.inr command))

omit [DecidableEq ConnectionId] in
private theorem new_unstuck (peer owner : PeerId) (endpoint : ConnectedPoint PeerId) (data : ProtocolsData) :
    Unstuck waiting s connection ⟨owner, ⟨.new peer endpoint data, [], []⟩, [], 0, []⟩ := by
  refine ⟨Nat.zero_le _, fun i waits => ?_⟩
  have shut : (NotificationsHandler.new (σ := σ) peer endpoint data).shape i = none ∨
      (NotificationsHandler.new (σ := σ) peer endpoint data).shape i = some .closed := by
    rcases i with _ | _ | i
    · exact .inr rfl
    · exact .inr rfl
    · exact .inl rfl
  dsimp only at waits
  rcases shut with none | closed
  · rw [none] at waits
    cases waits
  · rw [closed, Option.some.injEq] at waits
    exact absurd waits.symm waiting.unopened

variable [DecidableEq PeerId]

private theorem on_swarm_event_keeps (b : Notifications PeerId ConnectionId)
    (event : FromSwarm PeerId ConnectionId) :
    ∀ request ∈ b.events, request ∈ (b.onSwarmEvent event).events := by
  obtain ⟨added, grown, _⟩ := b.on_swarm_event_commands event
  rw [grown]
  exact fun request member => List.mem_append_left _ member

theorem system_turn_unstuck {l : SystemTurn PeerId ConnectionId σ ω} (all : AllUnstuck waiting s)
    (step : s.turn transport l = some s') : AllUnstuck waiting s' := by
  cases l with
  | established connection peer endpoint =>
    obtain ⟨-, rfl⟩ := established_turn step
    exact set_unstuck all (on_swarm_event_keeps _ _) rfl (new_unstuck _ _ _ _)
  | closed connection =>
    obtain ⟨c, _, rfl⟩ := Option.map_eq_some_iff.mp step
    intro other d held
    exact unstuck_mono (all other d (Finmap.erased_entry held).2) fun _ => on_swarm_event_keeps _ _ _
  | pollBehaviour =>
    rcases poll_behaviour_turn step with
      rfl | ⟨event, rest, pending, ⟨told, rfl, rfl⟩ | ⟨peer, other, message, rfl, rfl⟩⟩
    · exact all
    · intro connection c held
      refine unstuck_mono (all connection c held) fun message answer => ?_
      rw [pending] at answer
      exact (List.mem_cons.mp answer).resolve_left nofun
    · exact send_unstuck all pending
  | command connection =>
    obtain ⟨c, message, commands, run, found, queue, taken, rfl⟩ := command_turn step
    refine set_unstuck all ?_ rfl ?_
    · exact fun _ => id
    apply turn_unstuck (unstuck_mono (all connection c found) ?_) taken
    · intro command member
      rw [queue] at member
      rcases List.mem_cons.mp member with rfl | member
      · exact .inr rfl
      · exact .inl member
    · exact fun _ => id
  | deliver connection =>
    obtain ⟨c, found, step⟩ := Option.bind_eq_some_iff.mp step
    obtain ⟨event, next, rfl⟩ := Option.map_eq_some_iff.mp step
    apply set_unstuck all (on_connection_handler_event_keeps _ _ _) rfl
    exact deliver_unstuck (all connection c found) next rfl
  | handler connection turn =>
    obtain ⟨-, c, run, found, taken, rfl⟩ := handler_turn step
    refine set_unstuck all ?_ rfl ?_
    · exact fun _ => id
    apply turn_unstuck (unstuck_mono (all connection c found) ?_) taken
    · exact fun command member => .inl member
    · exact fun _ => id

/-- In every run, while a connection lives, a protocol the remote waits on has
its wish or the command to open it on the way, and an open protocol without a
substream to send on has its wish or the command to close it on the way. -/
theorem waits_underway {data : ProtocolsData} {turns : List (SystemTurn PeerId ConnectionId σ ω)}
    {t : System PeerId ConnectionId σ} (run : (notificationRuns transport data).replay turns = some t)
    (found : t.connections.lookup connection = some c) (i : Nat) (proto : ProtocolDetails σ)
    (held : c.run.handler.protocols[i]? = some proto) :
    (∀ inbound pendingOpening, proto.state = .openDesiredByRemote inbound pendingOpening →
      Underway t connection c (.openDesiredByRemote i) (.open i)) ∧
    ∀ recv inbound, proto.state = .opened recv inbound none →
      Underway t connection c (.closeDesired i) (.close i) := by
  have unstuck : ∀ waiting : Waiting PeerId ConnectionId σ, Unstuck waiting t connection c := by
    intro waiting
    have all : AllUnstuck waiting t := by
      apply Machine.invariant (fun s l s' all step => system_turn_unstuck all step) ?_ run
      intro connection c absent
      cases absent
    exact all connection c found
  have shape : c.run.handler.shape i = some proto.state.shape := by
    rw [NotificationsHandler.shape, held]
    rfl
  refine ⟨fun inbound pendingOpening state => ?_, fun recv inbound state => ?_⟩
  · apply (unstuck remoteWaiting).underway i
    rw [shape, state]
    rfl
  · apply (unstuck failedWaiting).underway i
    rw [shape, state]
    rfl

/-- The flush of an open protocol failed and the wish to close it is returned. -/
theorem failed_flush_underway : ∃ (t : System Nat Nat Unit) (c : Connection Nat Unit)
    (proto : ProtocolDetails Unit) (recv : Receiver),
    (notificationRuns .flushing .zero).replay (opening ++ [.handler 0 (.poll false)]) = some t ∧
      t.connections.lookup 0 = some c ∧ c.run.handler.protocols[0]? = some proto ∧
      proto.state = .opened recv none none ∧ Underway t 0 c (.closeDesired 0) (.close 0) := by
  have state : ((notificationRuns .flushing .zero).replay (opening ++ [.handler 0 (.poll false)])).bind
      (fun t : System Nat Nat Unit => (t.connections.lookup 0).bind fun c =>
        c.run.handler.protocols[0]?.map ProtocolDetails.state) = some (.opened ⟨1, none, []⟩ none none) := by
    rfl
  obtain ⟨t, run, state⟩ := Option.bind_eq_some_iff.mp state
  obtain ⟨c, found, state⟩ := Option.bind_eq_some_iff.mp state
  obtain ⟨proto, held, state⟩ := Option.map_eq_some_iff.mp state
  exact ⟨t, c, proto, _, run, found, held, state, (waits_underway run found 0 proto held).2 _ _ state⟩

end Steps
end Subp2pExplorer.Notifications
