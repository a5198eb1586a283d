import Subp2pExplorer.Notifications.Behavior
import Subp2pExplorer.Notifications.HandlerRuns

/-! The behaviour with the handlers of all its connections. Commands reach a
handler in the order the behaviour gave them, events reach the behaviour in the
order the handler returned them; a connection id is used once. What the swarm
is told is kept with the connection it is about, which the events themselves
do not name. -/
namespace Subp2pExplorer.Notifications
open Lib Subp2pExplorer.Types

/-- A live connection: its handler, the commands on their way to it, how many
of its events were delivered, and the protocols a command took out of open. -/
structure Connection (PeerId σ : Type) where
  peer : PeerId
  run : HandlerRun PeerId σ
  commands : List FromBehavior
  delivered : Nat
  closedOpen : List Nat

structure System (PeerId ConnectionId σ : Type) where
  behaviour : Notifications PeerId ConnectionId
  connections : Map ConnectionId (Connection PeerId σ)
  used : Finset ConnectionId
  produced : List (ConnectionId × NotificationsToSwarm PeerId)

inductive SystemTurn (PeerId ConnectionId σ ω : Type) where
  | established (connection : ConnectionId) (peer : PeerId) (endpoint : ConnectedPoint PeerId)
  | closed (connection : ConnectionId)
  | pollBehaviour
  | command (connection : ConnectionId)
  | deliver (connection : ConnectionId)
  | handler (connection : ConnectionId) (turn : HandlerTurn σ ω)

section Steps
variable {PeerId ConnectionId σ ω : Type} [DecidableEq PeerId] [DecidableEq ConnectionId]
  (transport : Transport σ ω)

/-- The open protocols a command closes. -/
def closedBy (h : NotificationsHandler PeerId σ) : FromBehavior → List Nat
  | .open _ => []
  | .close index => match h.protocols[index]?.map ProtocolDetails.state with
    | some (.opened _ _ _) => [index]
    | _ => []

namespace System

/-- The behaviour after a callback about a connection, with the events for the
swarm that the callback queued. -/
def observe (s : System PeerId ConnectionId σ) (connection : ConnectionId)
    (behaviour : Notifications PeerId ConnectionId) : System PeerId ConnectionId σ :=
  { s with
    behaviour := behaviour
    produced := s.produced ++ (behaviour.events.drop s.behaviour.events.length).filterMap fun event =>
      match event with
      | .generateEvent event => some (connection, event)
      | .notifyHandler _ _ _ => none }

def setConnection (s : System PeerId ConnectionId σ) (connection : ConnectionId) (c : Connection PeerId σ) :
    System PeerId ConnectionId σ :=
  { s with connections := s.connections.insert connection c }

/-- A command the behaviour gave goes to its connection while that lives. -/
def sendCommand (s : System PeerId ConnectionId σ) (connection : ConnectionId) (message : FromBehavior) :
    System PeerId ConnectionId σ :=
  match s.connections.lookup connection with
  | some c => s.setConnection connection { c with commands := c.commands ++ [message] }
  | none => s

def turn (s : System PeerId ConnectionId σ) :
    SystemTurn PeerId ConnectionId σ ω → Option (System PeerId ConnectionId σ)
  | .established connection peer endpoint =>
    if connection ∈ s.used then none
    else
      let handler := match endpoint with
        | .dialer address => s.behaviour.handleEstablishedOutboundConnection peer address
        | .listener localAddr sendBackAddr =>
          s.behaviour.handleEstablishedInboundConnection peer localAddr sendBackAddr
      let s := s.observe connection (s.behaviour.onSwarmEvent (.connectionEstablished peer connection))
      some ({ s with used := insert connection s.used }.setConnection connection
        ⟨peer, ⟨handler, [], []⟩, [], 0, []⟩)
  | .closed connection =>
    (s.connections.lookup connection).map fun c =>
      let s := s.observe connection (s.behaviour.onSwarmEvent (.connectionClosed c.peer connection))
      { s with connections := s.connections.erase connection }
  | .pollBehaviour =>
    match s.behaviour.poll with
    | (.ready (.notifyHandler _ connection message), behaviour) =>
      some ({ s with behaviour := behaviour }.sendCommand connection message)
    | (.ready (.generateEvent _), behaviour) => some { s with behaviour := behaviour }
    | (.pending, behaviour) => some { s with behaviour := behaviour }
  | .command connection =>
    (s.connections.lookup connection).bind fun c =>
      match c.commands with
      | [] => none
      | message :: commands =>
        (c.run.turn transport (.command message)).map fun run =>
          s.setConnection connection { c with
            run := run
            commands := commands
            closedOpen := closedBy c.run.handler message ++ c.closedOpen }
  | .deliver connection =>
    (s.connections.lookup connection).bind fun c =>
      c.run.returned[c.delivered]?.map fun event =>
        let s := s.observe connection (s.behaviour.onConnectionHandlerEvent c.peer connection event)
        s.setConnection connection { c with delivered := c.delivered + 1 }
  | .handler connection turn =>
    match turn with
    | .command _ => none
    | turn =>
      (s.connections.lookup connection).bind fun c =>
        (c.run.turn transport turn).map fun run => s.setConnection connection { c with run := run }

end System

/-- The runs of a behaviour with its connections. -/
def notificationRuns (data : ProtocolsData) :
    Machine (System PeerId ConnectionId σ) (SystemTurn PeerId ConnectionId σ ω) where
  start := ⟨.new data, ∅, ∅, []⟩
  next := System.turn transport

section Turns
variable {transport} {s s' : System PeerId ConnectionId σ} {connection : ConnectionId}

/-- A new connection gets a handler with the behaviour's data, and is announced
to the behaviour. -/
theorem established_turn {peer : PeerId} {endpoint : ConnectedPoint PeerId}
    (step : s.turn transport (.established connection peer endpoint) = some s') :
    connection ∉ s.used ∧
      s' = { s.observe connection (s.behaviour.onSwarmEvent (.connectionEstablished peer connection)) with
        used := insert connection s.used }.setConnection connection
          ⟨peer, ⟨.new peer endpoint s.behaviour.data, [], []⟩, [], 0, []⟩ := by
  obtain ⟨unused, step⟩ := Option.ite_none_left_eq_some.mp step
  cases step
  cases endpoint with
  | dialer address => exact ⟨unused, rfl⟩
  | listener localAddr sendBackAddr => exact ⟨unused, rfl⟩

/-- The behaviour hands out its first event, if it has one; a command goes to
its connection. -/
theorem poll_behaviour_turn (step : s.turn transport .pollBehaviour = some s') :
    s' = s ∨ ∃ event rest, s.behaviour.events = event :: rest ∧
      ((∃ told, event = .generateEvent told ∧ s' = { s with behaviour := { s.behaviour with events := rest } }) ∨
        ∃ peer other message, event = .notifyHandler peer other message ∧
          s' = { s with behaviour := { s.behaviour with events := rest } }.sendCommand other message) := by
  dsimp only [System.turn] at step
  unfold Notifications.poll at step
  cases pending : s.behaviour.events with
  | nil =>
    rw [pending] at step
    cases step
    exact .inl rfl
  | cons event rest =>
    rw [pending] at step
    cases event with
    | generateEvent told =>
      cases step
      exact .inr ⟨_, rest, rfl, .inl ⟨told, rfl, rfl⟩⟩
    | notifyHandler peer other message =>
      cases step
      exact .inr ⟨_, rest, rfl, .inr ⟨peer, other, message, rfl, rfl⟩⟩

/-- A handler takes the first of its commands. -/
theorem command_turn (step : s.turn transport (.command connection) = some s') :
    ∃ c message commands run, s.connections.lookup connection = some c ∧ c.commands = message :: commands ∧
      c.run.turn transport (.command message) = some run ∧
      s' = s.setConnection connection { c with
        run := run
        commands := commands
        closedOpen := closedBy c.run.handler message ++ c.closedOpen } := by
  obtain ⟨c, found, step⟩ := Option.bind_eq_some_iff.mp step
  cases queue : c.commands with
  | nil =>
    rw [queue] at step
    cases step
  | cons message commands =>
    rw [queue] at step
    obtain ⟨run, taken, rfl⟩ := Option.map_eq_some_iff.mp step
    exact ⟨c, message, commands, run, found, queue, taken, rfl⟩

/-- Commands reach a handler no other way. -/
theorem handler_turn {turn : HandlerTurn σ ω} (step : s.turn transport (.handler connection turn) = some s') :
    (∀ message, turn ≠ .command message) ∧ ∃ c run, s.connections.lookup connection = some c ∧
      c.run.turn transport turn = some run ∧ s' = s.setConnection connection { c with run := run } := by
  have stepped : (∀ message, turn ≠ .command message) ∧ ((s.connections.lookup connection).bind fun c =>
      (c.run.turn transport turn).map fun run => s.setConnection connection { c with run := run }) = some s' := by
    cases turn with
    | command message => cases step
    | _ => exact ⟨by simp, step⟩
  obtain ⟨c, found, step⟩ := Option.bind_eq_some_iff.mp stepped.2
  obtain ⟨run, taken, rfl⟩ := Option.map_eq_some_iff.mp step
  exact ⟨stepped.1, c, run, found, taken, rfl⟩

end Turns
end Steps

/-- What the swarm is told of a protocol on a connection. -/
inductive Told where
  | opened
  | closed
  deriving DecidableEq

section Accounts
variable {PeerId ConnectionId σ ω : Type} [DecidableEq ConnectionId]

def toldOf (index : Nat) : NotificationsToSwarm PeerId → Option Told
  | .customProtocolOpen _ i _ _ _ => if i = index then some .opened else none
  | .customProtocolClosed _ i => if i = index then some .closed else none
  | .notification _ _ _ => none

def told (connection : ConnectionId) (index : Nat)
    (produced : List (ConnectionId × NotificationsToSwarm PeerId)) : List Told :=
  produced.filterMap fun event => if event.1 = connection then toldOf index event.2 else none

/-- Opened and closed alternate. -/
def Alternate (events : List Told) : Prop := events.IsChain (· ≠ ·)

/-- No outbound handshake completes for a protocol that a command of the
behaviour took out of open before, on the same connection. -/
def NoReopening (s : System PeerId ConnectionId σ) : SystemTurn PeerId ConnectionId σ ω → Prop
  | .handler connection (.outbound _ index) =>
    ∀ c, s.connections.lookup connection = some c → index ∈ c.closedOpen →
      ∀ proto inbound direction, c.run.handler.protocols[index]? = some proto →
        proto.state ≠ .opening inbound direction
  | _ => True

end Accounts

section Completions
variable {PeerId σ ω : Type}

def completed (i : Nat) : ToBehavior PeerId → Bool
  | .handshakeCompleted index _ _ _ _ => index = i
  | _ => false

def completion (i : Nat) : HandlerEvent PeerId → Bool
  | .notifyBehaviour event => completed i event
  | .outboundSubstreamRequest _ _ => false

/-- One for an open protocol. -/
def State.openness : State σ → Nat
  | .opened _ _ _ => 1
  | _ => 0

/-- The handshakes completed for a protocol, returned by a poll or not. -/
def HandlerRun.completions (r : HandlerRun PeerId σ) (i : Nat) : Nat :=
  r.handler.queued (completion i) + r.returned.countP (completed i)

/-- Each completed handshake opened a protocol that is open or was closed by a
command, and there is at most one. -/
def Accounted (c : Connection PeerId σ) : Prop :=
  ∀ i, c.run.completions i = c.run.handler.measure State.openness i + c.closedOpen.count i ∧
    c.run.completions i ≤ 1

theorem polled_openness {before after : State σ} (polled : Polled before after) :
    after.openness = before.openness := by
  cases polled <;> rfl

theorem inbound_not_completed {event : ToBehavior PeerId} (inbound : Inbound event) (i : Nat) :
    completed i event = false := by
  rcases inbound with ⟨index, rfl⟩ | ⟨index, bytes, rfl⟩ <;> rfl

section Effects
variable {h : NotificationsHandler PeerId σ} {proto : ProtocolDetails σ} {index : Nat} {callback : Callback σ}
  {before after : State σ} {added : List (HandlerEvent PeerId)}

/-- A callback completes handshakes of its own protocol only. -/
theorem effect_completes_own (effect : Effect h proto index callback before after added) {i : Nat}
    (apart : i ≠ index) : added.countP (completion i) = 0 := by
  cases effect <;> simp [completion, completed, Ne.symm apart]

theorem effect_open (effect : Effect h proto index .open before after added) :
    added.countP (completion index) = 0 ∧ after.openness = before.openness := by
  cases effect <;> exact ⟨rfl, rfl⟩

theorem effect_close (effect : Effect h proto index .close before after added) :
    added.countP (completion index) = 0 ∧ after.openness = 0 := by
  cases effect <;> exact ⟨rfl, rfl⟩

/-- A completed handshake opens the protocol, out of an opening. -/
theorem effect_completes (effect : Effect h proto index callback before after added)
    (substream : callback ≠ .close) :
    before.openness + added.countP (completion index) = after.openness ∧
      (added.countP (completion index) = 0 ∨ before.openness = 0 ∧ added.countP (completion index) = 1 ∧
        ∃ opened inbound direction, callback = .outbound opened ∧ before = .opening inbound direction) := by
  cases effect <;> simp_all [completion, completed, State.openness]

end Effects

/-- A turn without a callback moves completed handshakes to the behaviour. -/
theorem quiet_completions {transport : Transport σ ω} {r r' : HandlerRun PeerId σ} {l : HandlerTurn σ ω}
    (quiet : l.callback = none) (step : r.turn transport l = some r') (i : Nat) :
    r'.completions i = r.completions i ∧
      r'.handler.measure State.openness i = r.handler.measure State.openness i := by
  unfold HandlerRun.completions
  rcases quiet_turn quiet step with ⟨event, rest, pending, rfl⟩ | ⟨protocols, events, driven, inbound, rfl⟩
  · rw [NotificationsHandler.queued, NotificationsHandler.queued, pending, List.countP_cons]
    cases event with
    | notifyBehaviour event =>
      refine ⟨?_, rfl⟩
      show rest.countP (completion i) + (r.returned ++ [event]).countP (completed i) = _
      have same : completion i (.notifyBehaviour event) = completed i event := rfl
      rw [List.countP_append, List.countP_singleton, same]
      omega
    | outboundSubstreamRequest protocol info => exact ⟨rfl, rfl⟩
  · refine ⟨?_, polled_measure (fun _ _ => polled_openness) driven i⟩
    have none : events.countP (completed i) = 0 := by
      rw [List.countP_eq_zero]
      intro event member
      rw [inbound_not_completed (inbound event member)]
      exact Bool.false_ne_true
    rw [List.countP_append, none]
    rfl

/-- What a callback does to the completed handshakes of each protocol. -/
theorem callback_completions {transport : Transport σ ω} {r r' : HandlerRun PeerId σ} {l : HandlerTurn σ ω}
    {callback : Callback σ} {index : Nat} (made : l.callback = some (callback, index))
    (step : r.turn transport l = some r') :
    ∃ proto state added, Effect r.handler proto index callback proto.state state added ∧
      r.handler.protocols[index]? = some proto ∧
      (∀ i, i ≠ index → r'.completions i = r.completions i ∧
        r'.handler.measure State.openness i = r.handler.measure State.openness i) ∧
      r'.completions index = r.completions index + added.countP (completion index) ∧
      r.handler.measure State.openness index = proto.state.openness ∧
      r'.handler.measure State.openness index = state.openness := by
  obtain ⟨proto, state, added, effect, applied, returned, _, _⟩ := callback_turn made step
  have counted : ∀ i, r'.completions i = r.completions i + added.countP (completion i) := by
    intro i
    rw [HandlerRun.completions, HandlerRun.completions, returned, NotificationsHandler.applied_queued applied]
    omega
  have measured := NotificationsHandler.applied_measure applied State.openness
  refine ⟨proto, state, added, effect, applied.found, ?_, counted index,
    NotificationsHandler.measure_found applied.found _, ?_⟩
  · intro i apart
    rw [counted, effect_completes_own effect apart, measured, if_neg apart]
    exact ⟨rfl, rfl⟩
  · rw [measured, if_pos rfl]

theorem closed_by_count {h : NotificationsHandler PeerId σ} {index : Nat} {proto : ProtocolDetails σ}
    (found : h.protocols[index]? = some proto) (i : Nat) :
    (closedBy h (.close index)).count i = if i = index then proto.state.openness else 0 := by
  unfold closedBy
  dsimp only
  rw [found, Option.map_some]
  cases proto.state with
  | opened recv inbound outbound =>
    show [index].count i = if i = index then 1 else 0
    by_cases same : i = index
    · simp [same]
    · simp [same, Ne.symm same]
  | _ => simp [State.openness]

/-- A command leaves the accounts right: what it takes out of open is kept. -/
theorem command_accounted {transport : Transport σ ω} {c : Connection PeerId σ} {run : HandlerRun PeerId σ}
    {message : FromBehavior} {commands : List FromBehavior} (accounted : Accounted c)
    (step : c.run.turn transport (.command message) = some run) :
    Accounted { c with
      run := run, commands := commands, closedOpen := closedBy c.run.handler message ++ c.closedOpen } := by
  intro i
  have before := accounted i
  show run.completions i = run.handler.measure State.openness i +
    (closedBy c.run.handler message ++ c.closedOpen).count i ∧ run.completions i ≤ 1
  rw [List.count_append]
  cases message with
  | «open» index =>
    have made : (HandlerTurn.command (.open index) : HandlerTurn σ ω).callback = some (.open, index) := rfl
    obtain ⟨proto, state, added, effect, found, others, counted, was, is⟩ :=
      callback_completions made step
    obtain ⟨none, same⟩ := effect_open effect
    have closed : (closedBy c.run.handler (.open index)).count i = 0 := rfl
    by_cases own : i = index
    · subst own
      omega
    · have kept := others i own
      omega
  | close index =>
    have made : (HandlerTurn.command (.close index) : HandlerTurn σ ω).callback = some (.close, index) := rfl
    obtain ⟨proto, state, added, effect, found, others, counted, was, is⟩ :=
      callback_completions made step
    obtain ⟨none, shut⟩ := effect_close effect
    have closed := closed_by_count found i
    by_cases own : i = index
    · subst own
      rw [if_pos rfl] at closed
      omega
    · rw [if_neg own] at closed
      have kept := others i own
      omega

/-- Any other turn of a handler leaves the accounts right as long as it opens
no protocol a command closed. -/
theorem handler_accounted {transport : Transport σ ω} {c : Connection PeerId σ} {run : HandlerRun PeerId σ}
    {l : HandlerTurn σ ω} (accounted : Accounted c) (free : ∀ message, l ≠ .command message)
    (kept : ∀ opened index, l = .outbound opened index → index ∈ c.closedOpen →
      ∀ proto inbound direction, c.run.handler.protocols[index]? = some proto →
        proto.state ≠ .opening inbound direction)
    (step : c.run.turn transport l = some run) : Accounted { c with run := run } := by
  intro i
  have before := accounted i
  show run.completions i = run.handler.measure State.openness i + c.closedOpen.count i ∧ run.completions i ≤ 1
  cases made : l.callback with
  | none =>
    obtain ⟨completions, openness⟩ := quiet_completions made step i
    omega
  | some pair =>
    obtain ⟨callback, index⟩ := pair
    obtain ⟨proto, state, added, effect, found, others, counted, was, is⟩ := callback_completions made step
    by_cases own : i = index
    · subst own
      have substream : callback ≠ .close := by
        intro closes
        subst closes
        cases l with
        | command message => exact free message rfl
        | _ => cases made
      obtain ⟨sum, none | ⟨shut, one, opened, inbound, direction, outbound, opening⟩⟩ :=
        effect_completes effect substream
      · omega
      · have never : c.closedOpen.count i = 0 := by
          rw [List.count_eq_zero]
          intro closed
          subst outbound
          cases l with
          | outbound opened' info =>
            cases made
            exact kept opened i rfl closed proto inbound direction found opening
          | command message => exact free message rfl
          | _ => cases made
        omega
    · have same := others i own
      omega

end Completions

section Alternation
variable {PeerId ConnectionId σ ω : Type} [DecidableEq ConnectionId]
  {transport : Transport σ ω} {s s' : System PeerId ConnectionId σ}

/-- What the events of a handler that were delivered told the swarm. -/
def Connection.tells (c : Connection PeerId σ) (i : Nat) : List Told :=
  .replicate ((c.run.returned.take c.delivered).countP (completed i)) .opened

/-- The swarm was told of each completed handshake that was delivered, and of
nothing else; no connection opened a protocol twice. -/
structure Sound (s : System PeerId ConnectionId σ) : Prop where
  live : ∀ connection c, s.connections.lookup connection = some c →
    connection ∈ s.used ∧ Accounted c ∧ c.delivered ≤ c.run.returned.length ∧
      ∀ i, told connection i s.produced = c.tells i
  fresh : ∀ connection ∉ s.used, ∀ i, told connection i s.produced = []
  once : ∀ connection i, (told connection i s.produced).length ≤ 1 ∧
    ∀ event ∈ told connection i s.produced, event = .opened

theorem told_append (connection : ConnectionId) (i : Nat)
    (produced more : List (ConnectionId × NotificationsToSwarm PeerId)) :
    told connection i (produced ++ more) = told connection i produced ++ told connection i more :=
  List.filterMap_append

private theorem tells_once {c : Connection PeerId σ} (accounted : Accounted c) (i : Nat) :
    (c.tells i).length ≤ 1 ∧ ∀ event ∈ c.tells i, event = .opened := by
  refine ⟨?_, fun event member => (List.mem_replicate.mp member).2⟩
  rw [Connection.tells, List.length_replicate]
  have within : (c.run.returned.take c.delivered).countP (completed i) ≤ c.run.returned.countP (completed i) :=
    (List.take_sublist _ _).countP_le
  have single : c.run.handler.queued (completion i) + c.run.returned.countP (completed i) ≤ 1 := (accounted i).2
  omega

/-- Changing one connection in a way that keeps its account and what it told. -/
private theorem sound_set {connection : ConnectionId} {c c' : Connection PeerId σ} (sound : Sound s)
    (found : s.connections.lookup connection = some c) (accounted : Accounted c')
    (within : c'.delivered ≤ c'.run.returned.length) (tells : ∀ i, c'.tells i = c.tells i) :
    Sound (s.setConnection connection c') where
  live := fun other d held => by
    rcases Finmap.inserted_entry held with ⟨rfl, rfl⟩ | ⟨-, before⟩
    · obtain ⟨used, _, _, said⟩ := sound.live other c found
      exact ⟨used, accounted, within, fun i => (said i).trans (tells i).symm⟩
    · exact sound.live other d before
  fresh := sound.fresh
  once := sound.once

/-- An event of a handler tells the swarm of an open exactly if it is a
completed handshake. -/
private theorem observe_handler (connection other : ConnectionId) (peer : PeerId) (event : ToBehavior PeerId)
    (i : Nat) :
    told other i (s.observe connection (s.behaviour.onConnectionHandlerEvent peer connection event)).produced =
      told other i s.produced ++
        if other = connection ∧ completed i event = true then [.opened] else [] := by
  rw [System.observe, told_append]
  congr 1
  cases event with
  | handshakeCompleted index endpoint handshake isInbound sender =>
    by_cases same : other = connection
    · by_cases own : index = i <;>
        simp [Notifications.onConnectionHandlerEvent, Notifications.propagateEvent, told, toldOf, completed,
          same, own]
    · simp [Notifications.onConnectionHandlerEvent, Notifications.propagateEvent, told, same, Ne.symm same]
  | _ =>
    simp [Notifications.onConnectionHandlerEvent, Notifications.propagateEvent, told, toldOf, completed]

/-- A handler only adds to the events it returned. -/
theorem turn_returned {r r' : HandlerRun PeerId σ} {l : HandlerTurn σ ω}
    (step : r.turn transport l = some r') : ∃ more, r'.returned = r.returned ++ more := by
  cases made : l.callback with
  | some pair =>
    obtain ⟨callback, index⟩ := pair
    obtain ⟨_, _, _, _, _, returned, _⟩ := callback_turn made step
    exact ⟨[], returned.trans (List.append_nil _).symm⟩
  | none =>
    rcases quiet_turn made step with ⟨event, rest, _, rfl⟩ | ⟨_, events, _, _, rfl⟩
    · cases event with
      | notifyBehaviour event => exact ⟨[event], rfl⟩
      | outboundSubstreamRequest protocol info => exact ⟨[], (List.append_nil _).symm⟩
    · exact ⟨events, rfl⟩

private theorem run_sound {connection : ConnectionId} {c : Connection PeerId σ} {run : HandlerRun PeerId σ}
    {l : HandlerTurn σ ω} {commands : List FromBehavior} {closedOpen : List Nat} (sound : Sound s)
    (found : s.connections.lookup connection = some c) (step : c.run.turn transport l = some run)
    (accounted : Accounted { c with run := run, commands := commands, closedOpen := closedOpen }) :
    Sound (s.setConnection connection
      { c with run := run, commands := commands, closedOpen := closedOpen }) := by
  obtain ⟨more, returned⟩ := turn_returned step
  obtain ⟨_, _, within, _⟩ := sound.live connection c found
  apply sound_set sound found accounted
  · show c.delivered ≤ run.returned.length
    rw [returned, List.length_append]
    omega
  · intro i
    show List.replicate ((run.returned.take c.delivered).countP (completed i)) Told.opened = _
    rw [returned, List.take_append_of_le_length within]
    rfl

private theorem send_command_sound (sound : Sound s) (connection : ConnectionId) (message : FromBehavior) :
    Sound (s.sendCommand connection message) := by
  unfold System.sendCommand
  cases found : s.connections.lookup connection with
  | none => exact sound
  | some c =>
    obtain ⟨_, accounted, within, _⟩ := sound.live connection c found
    exact sound_set sound found accounted within fun i => rfl

private theorem new_shut (peer : PeerId) (endpoint : ConnectedPoint PeerId) (data : ProtocolsData) (i : Nat) :
    (NotificationsHandler.new (σ := σ) peer endpoint data).measure State.openness i = 0 := by
  rcases i with _ | _ | i <;> rfl

private theorem established_sound {connection : ConnectionId} {peer : PeerId}
    {handler : NotificationsHandler PeerId σ} {behaviour : Notifications PeerId ConnectionId}
    (sound : Sound s) (unused : connection ∉ s.used)
    (shut : ∀ i, handler.measure State.openness i = 0) (empty : handler.pendingEvents = []) :
    Sound ({ s with behaviour := behaviour, used := insert connection s.used }.setConnection connection
      ⟨peer, ⟨handler, [], []⟩, [], 0, []⟩) where
  live := fun other d held => by
    rcases Finmap.inserted_entry held with ⟨rfl, rfl⟩ | ⟨-, before⟩
    · refine ⟨Finset.mem_insert_self _ _, fun i => ?_, Nat.zero_le _, sound.fresh other unused⟩
      have none : (⟨handler, [], []⟩ : HandlerRun PeerId σ).completions i = 0 := by
        rw [HandlerRun.completions, NotificationsHandler.queued, empty]
        rfl
      rw [none, shut]
      exact ⟨rfl, Nat.zero_le 1⟩
    · obtain ⟨used, rest⟩ := sound.live other d before
      exact ⟨Finset.mem_insert_of_mem used, rest⟩
  fresh := fun other unused => sound.fresh other fun used => unused (Finset.mem_insert_of_mem used)
  once := sound.once

private theorem deliver_sound {connection : ConnectionId} {c : Connection PeerId σ} {event : ToBehavior PeerId}
    (sound : Sound s) (found : s.connections.lookup connection = some c)
    (next : c.run.returned[c.delivered]? = some event) :
    Sound ((s.observe connection (s.behaviour.onConnectionHandlerEvent c.peer connection event)).setConnection
      connection { c with delivered := c.delivered + 1 }) := by
  obtain ⟨used, accounted, _, said⟩ := sound.live connection c found
  have now := fun other i => observe_handler (s := s) connection other c.peer event i
  have frame : (s.observe connection (s.behaviour.onConnectionHandlerEvent c.peer connection event)).connections =
      s.connections ∧
    (s.observe connection (s.behaviour.onConnectionHandlerEvent c.peer connection event)).used = s.used :=
    ⟨rfl, rfl⟩
  generalize s.observe connection (s.behaviour.onConnectionHandlerEvent c.peer connection event) = s'
    at now frame ⊢
  have others : ∀ other, other ≠ connection → ∀ i, told other i s'.produced = told other i s.produced := by
    intro other apart i
    rw [now, if_neg fun both => apart both.1, List.append_nil]
  have own : ∀ i, told connection i s'.produced =
      ({ c with delivered := c.delivered + 1 } : Connection PeerId σ).tells i := by
    intro i
    rw [now, said]
    show _ = List.replicate ((c.run.returned.take (c.delivered + 1)).countP (completed i)) Told.opened
    rw [List.take_add_one, next, List.countP_append]
    cases happened : completed i event with
    | false => simp [Connection.tells, happened]
    | true => simp [Connection.tells, happened, List.replicate_succ']
  refine ⟨fun other d held => ?_, fun other unused i => ?_, fun other i => ?_⟩
  · rcases Finmap.inserted_entry held with ⟨rfl, rfl⟩ | ⟨same, before⟩
    · exact ⟨frame.2 ▸ used, accounted, (List.getElem?_eq_some_iff.mp next).1, own⟩
    · rw [frame.1] at before
      obtain ⟨usedOther, kept, bound, saidOther⟩ := sound.live other d before
      exact ⟨frame.2 ▸ usedOther, kept, bound, fun i => (others other same i).trans (saidOther i)⟩
  · have unused : other ∉ s.used := frame.2 ▸ unused
    have apart : other ≠ connection := fun same => unused (same ▸ used)
    exact (others other apart i).trans (sound.fresh other unused i)
  · show (told other i s'.produced).length ≤ 1 ∧ ∀ event ∈ told other i s'.produced, event = Told.opened
    by_cases same : other = connection
    · rw [same, own]
      exact tells_once (c := { c with delivered := c.delivered + 1 }) accounted i
    · rw [others other same]
      exact sound.once other i

variable [DecidableEq PeerId]

/-- No event for the swarm comes from the swarm's own. -/
private theorem observe_swarm (connection : ConnectionId) (event : FromSwarm PeerId ConnectionId) :
    (s.observe connection (s.behaviour.onSwarmEvent event)).produced = s.produced := by
  obtain ⟨added, events, commands⟩ := s.behaviour.on_swarm_event_commands event
  have none : added.filterMap (fun request => match request with
      | .generateEvent event => some (connection, event)
      | .notifyHandler _ _ _ => none) = [] := by
    rw [List.filterMap_eq_nil_iff]
    intro request member
    obtain ⟨peerId, id, message, rfl⟩ := commands request member
    rfl
  rw [System.observe, events, List.drop_left, none, List.append_nil]

theorem turn_sound {l : SystemTurn PeerId ConnectionId σ ω} (sound : Sound s) (kept : NoReopening s l)
    (step : s.turn transport l = some s') : Sound s' := by
  cases l with
  | established connection peer endpoint =>
    obtain ⟨unused, rfl⟩ := established_turn step
    have told : Sound (s.observe connection
        (s.behaviour.onSwarmEvent (.connectionEstablished peer connection))) :=
      ⟨by rw [observe_swarm]; exact sound.live, by rw [observe_swarm]; exact sound.fresh,
        by rw [observe_swarm]; exact sound.once⟩
    exact established_sound told unused (new_shut _ _ _) rfl
  | closed connection =>
    obtain ⟨c, _, rfl⟩ := Option.map_eq_some_iff.mp step
    refine ⟨fun other d held => ?_, by rw [observe_swarm]; exact sound.fresh,
      by rw [observe_swarm]; exact sound.once⟩
    rw [observe_swarm]
    exact sound.live other d (Finmap.erased_entry held).2
  | pollBehaviour =>
    have polled : ∀ behaviour, Sound { s with behaviour := behaviour } :=
      fun _ => ⟨sound.live, sound.fresh, sound.once⟩
    rcases poll_behaviour_turn step with rfl | ⟨_, _, _, ⟨_, _, rfl⟩ | ⟨_, _, _, _, rfl⟩⟩
    · exact sound
    · exact polled _
    · exact send_command_sound (polled _) _ _
  | command connection =>
    obtain ⟨c, message, commands, run, found, -, taken, rfl⟩ := command_turn step
    have accounted := (sound.live connection c found).2.1
    exact run_sound sound found taken (command_accounted accounted taken)
  | deliver connection =>
    obtain ⟨c, found, step⟩ := Option.bind_eq_some_iff.mp step
    obtain ⟨event, next, rfl⟩ := Option.map_eq_some_iff.mp step
    exact deliver_sound sound found next
  | handler connection turn =>
    obtain ⟨free, c, run, found, taken, rfl⟩ := handler_turn step
    have accounted := (sound.live connection c found).2.1
    refine run_sound sound found taken (handler_accounted accounted free ?_ taken)
    intro opened index same
    subst same
    exact kept c found

private theorem once_alternates {events : List Told} (few : events.length ≤ 1) : Alternate events := by
  match events, few with
  | [], _ => exact .nil
  | [event], _ => exact .singleton event

/-- While no protocol that a command closed is opened again on its connection,
what the swarm is told of each connection and protocol alternates. -/
theorem open_close_alternate {data : ProtocolsData} {turns : List (SystemTurn PeerId ConnectionId σ ω)}
    {t : System PeerId ConnectionId σ} (meets : (notificationRuns transport data).Meets NoReopening turns)
    (run : (notificationRuns transport data).replay turns = some t) (connection : ConnectionId) (i : Nat) :
    Alternate (told connection i t.produced) := by
  have sound : Sound t := by
    apply Machine.invariant_under (fun s l s' held kept step => turn_sound held kept step) ?_ meets run
    refine ⟨fun other d held => ?_, fun other _ i => rfl, fun other i => ⟨Nat.zero_le 1, fun event absent => ?_⟩⟩
    · cases held
    · cases absent
  exact once_alternates (sound.once connection i).1

end Alternation

section Samples

/-- A connection comes up, its first protocol opens and the swarm is told. -/
def opening : List (SystemTurn Nat Nat Unit Bool) :=
  [.established 0 7 (.dialer []), .pollBehaviour, .command 0, .handler 0 (.poll true),
    .handler 0 (.outbound ⟨[4], ⟨()⟩⟩ 0), .handler 0 (.poll true), .deliver 0]

/-- A flush fails, the behaviour has the protocol closed, the remote opens a
substream again, and the protocol opens a second time. -/
def reopening : List (SystemTurn Nat Nat Unit Bool) :=
  [.handler 0 (.poll false), .deliver 0, .pollBehaviour, .pollBehaviour, .pollBehaviour, .command 0, .command 0,
    .handler 0 (.inbound ⟨⟨[4], ⟨(), .waiting, "/0/block-announces/1"⟩⟩, 0⟩),
    .handler 0 (.poll true), .handler 0 (.poll true), .handler 0 (.poll true), .deliver 0, .deliver 0,
    .pollBehaviour, .command 0, .handler 0 (.poll true), .handler 0 (.outbound ⟨[4], ⟨()⟩⟩ 0),
    .handler 0 (.poll true), .deliver 0]

/-- An answer is only taken for a protocol no command ever closed. -/
def neverClosed (s : System Nat Nat Unit) : SystemTurn Nat Nat Unit Bool → Bool
  | .handler connection (.outbound _ index) =>
    (s.connections.lookup connection).all fun c => !c.closedOpen.contains index
  | _ => true

theorem first_opening_alternates : ∃ t : System Nat Nat Unit,
    (notificationRuns .flushing .zero).replay opening = some t ∧
      told 0 0 t.produced = [.opened] ∧ Alternate (told 0 0 t.produced) := by
  have said : ((notificationRuns .flushing .zero).replay opening).map
      (fun t : System Nat Nat Unit => told 0 0 t.produced) = some [.opened] := by
    decide +kernel
  obtain ⟨t, run, said⟩ := Option.map_eq_some_iff.mp said
  have admits : ∀ s l, neverClosed s l = true → NoReopening s l := by
    intro s l checked
    unfold NoReopening
    split
    · rename_i connection opened index
      intro c found closed
      simp [neverClosed, found] at checked
      exact absurd closed checked
    · trivial
  have meets : (notificationRuns .flushing .zero).Meets NoReopening opening :=
    Machine.checks_meet admits (by decide +kernel)
  exact ⟨t, run, said, open_close_alternate meets run 0 0⟩

/-- Two opens and no close between them. -/
theorem reopening_unannounced : ∃ t : System Nat Nat Unit,
    (notificationRuns .flushing .zero).replay (opening ++ reopening) = some t ∧
      told 0 0 t.produced = [.opened, .opened] ∧ ¬ Alternate (told 0 0 t.produced) := by
  have said : ((notificationRuns .flushing .zero).replay (opening ++ reopening)).map
      (fun t : System Nat Nat Unit => told 0 0 t.produced) = some [.opened, .opened] := by
    decide +kernel
  obtain ⟨t, run, said⟩ := Option.map_eq_some_iff.mp said
  refine ⟨t, run, said, ?_⟩
  rw [said]
  simp [Alternate]

end Samples
end Subp2pExplorer.Notifications
