import Subp2pExplorer.Network.Genesis
import Subp2pExplorer.Notifications.Receivers

/-! Submitting extrinsics. The loop keeps the senders of the protocols that were
opened and answers a notification with the payload, on the transactions
protocol of the peer it came from; it is run here against the behaviour and all
its connections. -/
namespace Subp2pExplorer.Network
open Lib Notifications

def transactionsIndex : Nat := 1

/-- The sending end of a user channel: the channels of a handler are numbered,
and a connection has one handler. -/
structure Sender (ConnectionId : Type) where
  connection : ConnectionId
  channel : Nat

/-- What the loop of `submit_extrinsics` keeps. -/
structure Submission (PeerId ConnectionId : Type) where
  protocolSenders : Map (PeerId × Nat) (Sender ConnectionId)
  closeAfter : Nat

def Submission.new {PeerId ConnectionId : Type} : Submission PeerId ConnectionId := ⟨∅, 30⟩

/-- An event of the notifications: the loop breaks, or goes on and starts to
send at most one message. A failure to send is ignored. -/
def Submission.handle {PeerId ConnectionId : Type} [DecidableEq PeerId] (payload : Bytes)
    (s : Submission PeerId ConnectionId) (connection : ConnectionId) :
    NotificationsToSwarm PeerId → Option (Submission PeerId ConnectionId × Option (Sender ConnectionId × Bytes))
  | .customProtocolOpen peerId index _ _ sender =>
    some ({ s with protocolSenders := s.protocolSenders.insert (peerId, index) ⟨connection, sender⟩ }, none)
  | .customProtocolClosed _ _ => some (s, none)
  | .notification peerId _ _ =>
    if s.closeAfter = 0 then none
    else
      let s := { s with closeAfter := s.closeAfter - 1 }
      some (s, (s.protocolSenders.lookup (peerId, transactionsIndex)).map fun sender => (sender, payload))

/-- The loop with its swarm, and how many events the swarm has handed to it. -/
structure Submitting (PeerId ConnectionId σ : Type) where
  system : System PeerId ConnectionId σ
  handed : Nat
  submission : Submission PeerId ConnectionId
  running : Bool

section Steps
variable {PeerId ConnectionId σ ω : Type} [DecidableEq PeerId] [DecidableEq ConnectionId]

/-- A message put into a channel is dropped where nobody receives it. -/
def startSend (s : System PeerId ConnectionId σ) (sender : Sender ConnectionId) (message : Bytes) :
    System PeerId ConnectionId σ :=
  match s.connections.lookup sender.connection with
  | some c => s.setConnection sender.connection
      { c with run := { c.run with handler := userSend sender.channel message c.run.handler } }
  | none => s

/-- An event that the swarm hands to the loop. -/
def Submitting.receive (payload : Bytes) (t : Submitting PeerId ConnectionId σ) (connection : ConnectionId)
    (event : NotificationsToSwarm PeerId) : Submitting PeerId ConnectionId σ :=
  match t.submission.handle payload connection event with
  | none => { t with running := false }
  | some (submission, none) => { t with submission := submission }
  | some (submission, some (sender, message)) =>
    { t with submission := submission, system := startSend t.system sender message }

/-- A step of the swarm while the loop runs. Nothing but the loop puts messages
into channels. -/
def Submitting.turn (transport : Transport σ ω) (payload : Bytes) (t : Submitting PeerId ConnectionId σ)
    (l : SystemTurn PeerId ConnectionId σ ω) : Option (Submitting PeerId ConnectionId σ) :=
  if t.running then
    match l with
    | .handler _ (.send _ _) => none
    | .pollBehaviour => (t.system.turn transport .pollBehaviour).bind fun system =>
      match t.system.behaviour.poll.1 with
      | .ready (.generateEvent event) => t.system.produced[t.handed]?.map fun origin =>
        { t with system := system, handed := t.handed + 1 }.receive payload origin.1 event
      | _ => some { t with system := system }
    | l => (t.system.turn transport l).map fun system => { t with system := system }
  else none

/-- `submit_extrinsics`, behind the swarm it builds. -/
def submitExtrinsics (transport : Transport σ ω) (data : ProtocolsData) (extrinsics : String) :
    Except FromHexError (Machine (Submitting PeerId ConnectionId σ) (SystemTurn PeerId ConnectionId σ ω)) :=
  (hexDecode (trimStartMatches extrinsics)).map fun payload =>
    { start := ⟨(notificationRuns transport data).start, 0, .new, true⟩
      next := Submitting.turn transport payload }

end Steps

/-! ## The swarm -/

section Queues
variable {PeerId ConnectionId σ : Type} {s : System PeerId ConnectionId σ} {connection : ConnectionId}

/-- The event for the swarm in what the behaviour queued. -/
def generated : Notifications.ToSwarm PeerId ConnectionId → Option (NotificationsToSwarm PeerId)
  | .generateEvent event => some event
  | .notifyHandler _ _ _ => none

/-- The behaviour queues no more than this in answer to a handler. -/
theorem handler_event_appends (b : Notifications PeerId ConnectionId) (peer : PeerId) (connection : ConnectionId)
    (event : ToBehavior PeerId) :
    ∃ added, (b.onConnectionHandlerEvent peer connection event).events = b.events ++ added ∧
      ∀ name index handshake inbound channel,
        .generateEvent (.customProtocolOpen name index handshake inbound channel) ∈ added →
          Announced [event] index channel := by
  cases event with
  | handshakeCompleted index point handshake inbound sender =>
    refine ⟨_, rfl, fun name index handshake inbound channel member => ?_⟩
    cases List.mem_singleton.mp member
    exact ⟨point, handshake, inbound, List.mem_singleton.mpr rfl⟩
  | handshakeError index => exact ⟨[], (List.append_nil _).symm, by simp⟩
  | openDesiredByRemote index => exact ⟨_, rfl, by simp⟩
  | closeDesired index => exact ⟨_, rfl, by simp⟩
  | close index => exact ⟨[], (List.append_nil _).symm, by simp⟩
  | notification index bytes => exact ⟨_, rfl, by simp⟩

/-- What the swarm still has to hand out is what was produced and not handed out
yet. -/
def Pairing (s : System PeerId ConnectionId σ) (handed : Nat) : Prop :=
  handed ≤ s.produced.length ∧ s.behaviour.events.filterMap generated = (s.produced.drop handed).map Prod.snd

theorem observe_pairing (connection : ConnectionId) {behaviour : Notifications PeerId ConnectionId}
    {added : List (Notifications.ToSwarm PeerId ConnectionId)} {handed : Nat} (pairing : Pairing s handed)
    (appends : behaviour.events = s.behaviour.events ++ added) :
    Pairing (s.observe connection behaviour) handed ∧ (s.observe connection behaviour).produced =
      s.produced ++ (added.filterMap generated).map (Prod.mk connection) := by
  have tagged : (s.observe connection behaviour).produced =
      s.produced ++ (added.filterMap generated).map (Prod.mk connection) := by
    rw [System.observe, appends, List.drop_left, List.map_filterMap]
    refine congrArg _ (List.filterMap_congr fun event _ => ?_)
    cases event <;> rfl
  obtain ⟨within, same⟩ := pairing
  refine ⟨⟨?_, ?_⟩, tagged⟩
  · rw [tagged, List.length_append]
    exact within.trans (Nat.le_add_right _ _)
  · rw [tagged, List.drop_append_of_le_length within, List.map_append, List.map_map]
    show behaviour.events.filterMap generated = _
    rw [appends, List.filterMap_append, same]
    exact congrArg _ (List.map_id _).symm

end Queues

section Swarm
variable {PeerId ConnectionId σ ω : Type} [DecidableEq PeerId] [DecidableEq ConnectionId] {transport : Transport σ ω}
  {s s' : System PeerId ConnectionId σ} {l : SystemTurn PeerId ConnectionId σ ω}

/-- What a turn of the swarm makes of the run of a connection: nothing, a step of
its handler, or the start of a new one. -/
inductive Lives (s : System PeerId ConnectionId σ) (l : SystemTurn PeerId ConnectionId σ ω) (transport : Transport σ ω)
    (connection : ConnectionId) (run : HandlerRun PeerId σ) : Prop where
  | same {c} (live : s.connections.lookup connection = some c) (kept : run = c.run)
  | stepped {c turn} (live : s.connections.lookup connection = some c) (step : c.run.turn transport turn = some run)
      (cause : (∃ message, turn = .command message) ∨ l = .handler connection turn)
  | fresh {peer endpoint data} (cause : l = .established connection peer endpoint) (unused : connection ∉ s.used)
      (start : run = ⟨.new peer endpoint data, [], []⟩)

omit [DecidableEq PeerId] in
theorem send_command_lives (connection : ConnectionId) (message : FromBehavior) {other : ConnectionId}
    {c' : Connection PeerId σ} (live : (s.sendCommand connection message).connections.lookup other = some c') :
    ∃ c, s.connections.lookup other = some c ∧ c'.run = c.run := by
  unfold System.sendCommand at live
  cases found : s.connections.lookup connection with
  | none =>
    rw [found] at live
    exact ⟨c', live, rfl⟩
  | some c =>
    rw [found] at live
    rcases Finmap.inserted_entry live with ⟨rfl, rfl⟩ | ⟨_, before⟩
    · exact ⟨c, found, rfl⟩
    · exact ⟨c', before, rfl⟩

theorem turn_lives (step : s.turn transport l = some s') {connection : ConnectionId} {c' : Connection PeerId σ}
    (live : s'.connections.lookup connection = some c') : Lives s l transport connection c'.run := by
  cases l with
  | established new peer endpoint =>
    obtain ⟨unused, rfl⟩ := established_turn step
    rcases Finmap.inserted_entry live with ⟨rfl, rfl⟩ | ⟨_, before⟩
    · exact .fresh rfl unused rfl
    · exact .same before rfl
  | closed gone =>
    obtain ⟨c, _, rfl⟩ := Option.map_eq_some_iff.mp step
    exact .same (Finmap.erased_entry live).2 rfl
  | pollBehaviour =>
    rcases poll_behaviour_turn step with rfl | ⟨_, _, _, ⟨_, _, rfl⟩ | ⟨_, other, message, _, rfl⟩⟩
    · exact .same live rfl
    · exact .same live rfl
    · obtain ⟨c, before, same⟩ := send_command_lives other message live
      exact .same before same
  | command which =>
    obtain ⟨c, message, commands, run, found, -, taken, rfl⟩ := command_turn step
    rcases Finmap.inserted_entry live with ⟨rfl, rfl⟩ | ⟨_, before⟩
    · exact .stepped found taken (.inl ⟨message, rfl⟩)
    · exact .same before rfl
  | deliver which =>
    obtain ⟨c, found, step⟩ := Option.bind_eq_some_iff.mp step
    obtain ⟨event, next, rfl⟩ := Option.map_eq_some_iff.mp step
    rcases Finmap.inserted_entry live with ⟨rfl, rfl⟩ | ⟨_, before⟩
    · exact .same found rfl
    · exact .same before rfl
  | handler which turn =>
    obtain ⟨_, c, run, found, taken, rfl⟩ := handler_turn step
    rcases Finmap.inserted_entry live with ⟨rfl, rfl⟩ | ⟨_, before⟩
    · exact .stepped found taken (.inr rfl)
    · exact .same before rfl

/-- What the swarm is told of a new channel, the handler of the connection has
returned. -/
structure Produces (s s' : System PeerId ConnectionId σ) (added : List (ConnectionId × NotificationsToSwarm PeerId)) :
    Prop where
  produced : s'.produced = s.produced ++ added
  used : s.used ⊆ s'.used
  live : ∀ entry ∈ added, ∃ c, s.connections.lookup entry.1 = some c
  tells : ∀ connection peer index handshake inbound channel,
    (connection, .customProtocolOpen peer index handshake inbound channel) ∈ added →
      ∃ c, s.connections.lookup connection = some c ∧ Announced c.run.returned index channel

omit [DecidableEq PeerId] in
theorem produces_nothing (produced : s'.produced = s.produced) (used : s.used ⊆ s'.used) : Produces s s' [] :=
  ⟨produced.trans (List.append_nil _).symm, used, nofun, nofun⟩

/-- A turn that is no poll of the behaviour only adds to what the swarm will
hand out. -/
theorem turn_pairs (step : s.turn transport l = some s') (other : l ≠ .pollBehaviour) {handed : Nat}
    (pairing : Pairing s handed) : Pairing s' handed ∧ ∃ added, Produces s s' added := by
  have swarm : ∀ connection event, Pairing (s.observe connection (s.behaviour.onSwarmEvent event)) handed ∧
      (s.observe connection (s.behaviour.onSwarmEvent event)).produced = s.produced := by
    intro connection event
    obtain ⟨added, events, commands⟩ := s.behaviour.on_swarm_event_commands event
    obtain ⟨after, produced⟩ := observe_pairing connection pairing events
    have none : added.filterMap generated = [] := by
      rw [List.filterMap_eq_nil_iff]
      intro request member
      obtain ⟨peer, id, message, rfl⟩ := commands request member
      rfl
    rw [none, List.map_nil, List.append_nil] at produced
    exact ⟨after, produced⟩
  cases l with
  | established new peer endpoint =>
    obtain ⟨_, rfl⟩ := established_turn step
    obtain ⟨after, produced⟩ := swarm new (.connectionEstablished peer new)
    exact ⟨after, [], produces_nothing produced (Finset.subset_insert _ _)⟩
  | closed gone =>
    obtain ⟨c, _, rfl⟩ := Option.map_eq_some_iff.mp step
    obtain ⟨after, produced⟩ := swarm gone (.connectionClosed c.peer gone)
    exact ⟨after, [], produces_nothing produced (Finset.Subset.refl _)⟩
  | pollBehaviour => exact absurd rfl other
  | command which =>
    obtain ⟨c, message, commands, run, -, -, -, rfl⟩ := command_turn step
    exact ⟨pairing, [], produces_nothing rfl (Finset.Subset.refl _)⟩
  | deliver which =>
    obtain ⟨c, found, step⟩ := Option.bind_eq_some_iff.mp step
    obtain ⟨event, next, rfl⟩ := Option.map_eq_some_iff.mp step
    obtain ⟨added, events, opens⟩ := handler_event_appends s.behaviour c.peer which event
    obtain ⟨after, produced⟩ := observe_pairing which pairing events
    refine ⟨after, _, produced, Finset.Subset.refl _, fun entry member => ?_,
      fun connection peer index handshake inbound channel member => ?_⟩
    · obtain ⟨told, _, rfl⟩ := List.mem_map.mp member
      exact ⟨c, found⟩
    obtain ⟨told, noted, same⟩ := List.mem_map.mp member
    cases same
    obtain ⟨request, queued, opened⟩ := List.mem_filterMap.mp noted
    cases request with
    | notifyHandler => cases opened
    | generateEvent event' =>
      cases opened
      obtain ⟨point, handshake', direction, only⟩ := opens _ _ _ _ _ queued
      cases List.mem_singleton.mp only
      exact ⟨c, found, point, handshake', direction, List.mem_of_getElem? next⟩
  | handler which turn =>
    obtain ⟨_, c, run, -, -, rfl⟩ := handler_turn step
    exact ⟨pairing, [], produces_nothing rfl (Finset.Subset.refl _)⟩

end Swarm

/-! ## The messages -/

section Cleanness
variable {PeerId σ ω : Type} {transport : Transport σ ω} {r r' : HandlerRun PeerId σ} {l : HandlerTurn σ ω}
  {payload : Bytes} {limit : Nat}

/-- What waits in the receivers of a handler: copies of the payload, on the
transactions protocol, and at most so many. -/
def Clean (payload : Bytes) (limit : Nat) (r : HandlerRun PeerId σ) : Prop :=
  ∀ i recv, Receives r.handler.protocols i recv →
    (∀ message ∈ recv.messages, i = transactionsIndex ∧ message = payload) ∧ recv.messages.length ≤ limit

theorem Clean.more (clean : Clean payload limit r) {limit' : Nat} (more : limit ≤ limit') : Clean payload limit' r :=
  fun i recv receives => ⟨(clean i recv receives).1, (clean i recv receives).2.trans more⟩

theorem turn_clean (clean : Clean payload limit r) (step : r.turn transport l = some r')
    (unsent : ∀ channel message, l ≠ .send channel message) : Clean payload limit r' := by
  intro i recv' receives
  cases turn_renewed step receives with
  | drawn before drawn =>
    obtain ⟨copies, few⟩ := clean i _ before
    exact ⟨fun message member => copies message (drawn.2.subset member), drawn.2.length_le.trans few⟩
  | @put recv channel message turn before same => exact absurd turn (unsent channel message)
  | fresh made found opens same =>
    rw [same]
    exact ⟨nofun, Nat.zero_le _⟩

/-- The payload is put into a channel that was announced for the transactions. -/
theorem send_clean (clean : Clean payload limit r) (assigned : Assigned r) {channel : Nat}
    (announced : Announced r.journal transactionsIndex channel) :
    Clean payload (limit + 1) { r with handler := userSend channel payload r.handler } := by
  intro i recv' receives
  obtain ⟨recv, before, rfl⟩ := send_drew rfl receives
  obtain ⟨copies, few⟩ := clean i recv before
  by_cases same : recv.channel = channel
  · subst same
    obtain ⟨messages, _⟩ := recv.send_messages_own payload
    rw [messages]
    refine ⟨fun message member => ?_, by rw [List.length_append]; exact Nat.succ_le_succ few⟩
    rcases List.mem_append.mp member with earlier | last
    · exact copies message earlier
    · exact ⟨assigned.unique _ _ _ (assigned.opened i recv before) announced, List.mem_singleton.mp last⟩
  · rw [Receiver.send_messages_other same]
    exact ⟨copies, few.trans (Nat.le_succ _)⟩

theorem send_assigned (assigned : Assigned r) (channel : Nat) (message : Bytes) :
    Assigned { r with handler := userSend channel message r.handler } := by
  refine ⟨fun i recv' receives => ?_, assigned.created, assigned.unique⟩
  obtain ⟨recv, before, rfl⟩ := send_drew rfl receives
  have kept : (recv.send channel message).channel = recv.channel := by
    unfold Receiver.send
    split <;> rfl
  exact kept ▸ assigned.opened i recv before

theorem start_clean (peer : PeerId) (endpoint : Notifications.ConnectedPoint PeerId) (data : ProtocolsData) :
    Clean payload limit (⟨.new peer endpoint data, [], []⟩ : HandlerRun PeerId σ) := by
  rintro (_ | _ | i) recv ⟨proto, inbound, outbound, found, opened⟩
  all_goals cases found
  all_goals cases opened

end Cleanness

section Runs
variable {PeerId ConnectionId σ ω : Type} [DecidableEq PeerId] [DecidableEq ConnectionId] {transport : Transport σ ω}
  {payload : Bytes} {t t' : Submitting PeerId ConnectionId σ} {l : SystemTurn PeerId ConnectionId σ ω}

/-- What holds of the connections, whatever the loop has heard of them. -/
structure Sending (payload : Bytes) (limit : Nat) (s : System PeerId ConnectionId σ) : Prop where
  used : ∀ connection c, s.connections.lookup connection = some c → connection ∈ s.used
  known : ∀ entry ∈ s.produced, entry.1 ∈ s.used
  told : ∀ connection peer index handshake inbound channel,
    (connection, .customProtocolOpen peer index handshake inbound channel) ∈ s.produced →
      ∀ c, s.connections.lookup connection = some c → Announced c.run.journal index channel
  assigned : ∀ connection c, s.connections.lookup connection = some c → Assigned c.run
  clean : ∀ connection c, s.connections.lookup connection = some c → Clean payload limit c.run

theorem turn_sending {limit : Nat} {s s' : System PeerId ConnectionId σ}
    {added : List (ConnectionId × NotificationsToSwarm PeerId)} (sending : Sending payload limit s)
    (step : s.turn transport l = some s') (produces : Produces s s' added)
    (unsent : ∀ connection channel message, l ≠ .handler connection (.send channel message)) :
    Sending payload limit s' := by
  have turns : ∀ {connection : ConnectionId} {turn : HandlerTurn σ ω},
      (∃ message, turn = .command message) ∨ l = .handler connection turn →
        ∀ channel message, turn ≠ .send channel message := by
    rintro connection turn (⟨_, rfl⟩ | rfl) channel message same
    · cases same
    · exact unsent connection channel message (congrArg _ same)
  -- what was announced on a connection still is, while it lives
  have still : ∀ {connection c c' index channel}, s.connections.lookup connection = some c →
      s'.connections.lookup connection = some c' → Announced c.run.journal index channel →
        Announced c'.run.journal index channel := by
    intro connection c c' index channel before live announced
    cases turn_lives step live with
    | same found kept =>
      cases before.symm.trans found
      exact kept ▸ announced
    | stepped found step _ =>
      cases before.symm.trans found
      rw [turn_journal step, announced_append]
      exact .inl announced
    | fresh _ unused _ => exact absurd (sending.used connection c before) unused
  refine ⟨fun connection c' live => ?_, fun entry member => ?_, ?_, fun connection c' live => ?_,
    fun connection c' live => ?_⟩
  · cases turn_lives step live with
    | same found _ => exact produces.used (sending.used connection _ found)
    | stepped found _ _ => exact produces.used (sending.used connection _ found)
    | fresh cause _ _ =>
      subst cause
      obtain ⟨_, rfl⟩ := established_turn step
      exact Finset.mem_insert_self _ _
  · rw [produces.produced] at member
    rcases List.mem_append.mp member with earlier | new
    · exact produces.used (sending.known entry earlier)
    · obtain ⟨c, found⟩ := produces.live entry new
      exact produces.used (sending.used entry.1 c found)
  · intro connection peer index handshake inbound channel member c' live
    rw [produces.produced] at member
    rcases List.mem_append.mp member with earlier | new
    · cases turn_lives step live with
      | same found _ => exact still found live (sending.told _ _ _ _ _ _ earlier _ found)
      | stepped found _ _ => exact still found live (sending.told _ _ _ _ _ _ earlier _ found)
      | fresh _ unused _ => exact absurd (sending.known _ earlier) unused
    · obtain ⟨c, found, announced⟩ := produces.tells _ _ _ _ _ _ new
      exact still found live (announced_append.mpr (.inl announced))
  · cases turn_lives step live with
    | same found kept => exact kept ▸ sending.assigned connection _ found
    | stepped found step _ => exact turn_assigned (sending.assigned connection _ found) step
    | fresh _ _ start => exact start ▸ start_assigned _ _ _
  · cases turn_lives step live with
    | same found kept => exact kept ▸ sending.clean connection _ found
    | stepped found step cause => exact turn_clean (sending.clean connection _ found) step (turns cause)
    | fresh _ _ start => exact start ▸ start_clean _ _ _

omit [DecidableEq PeerId] in
/-- The loop starts to send on a channel that was announced for the transactions. -/
theorem start_send_sending {limit : Nat} {s : System PeerId ConnectionId σ} {sender : Sender ConnectionId}
    (sending : Sending payload limit s)
    (announced : ∀ c, s.connections.lookup sender.connection = some c →
      Announced c.run.journal transactionsIndex sender.channel) :
    Sending payload (limit + 1) (startSend s sender payload) := by
  unfold startSend
  cases found : s.connections.lookup sender.connection with
  | none =>
    exact ⟨sending.used, sending.known, sending.told, sending.assigned,
      fun connection c live => (sending.clean connection c live).more (Nat.le_succ _)⟩
  | some c =>
    have entry : ∀ {connection c'}, (s.connections.insert sender.connection
        { c with run := { c.run with handler := userSend sender.channel payload c.run.handler } }).lookup connection =
          some c' → ∃ c, s.connections.lookup connection = some c ∧ (c'.run = c.run ∨ connection = sender.connection ∧
            c'.run = { c.run with handler := userSend sender.channel payload c.run.handler }) := by
      intro connection c' live
      rcases Finmap.inserted_entry live with ⟨rfl, rfl⟩ | ⟨_, before⟩
      · exact ⟨c, found, .inr ⟨rfl, rfl⟩⟩
      · exact ⟨c', before, .inl rfl⟩
    refine ⟨fun connection c' live => ?_, sending.known, ?_, fun connection c' live => ?_, fun connection c' live => ?_⟩
    · obtain ⟨c, before, _⟩ := entry live
      exact sending.used connection c before
    · intro connection peer index handshake inbound channel member c' live
      obtain ⟨c, before, same⟩ := entry live
      have earlier := sending.told _ _ _ _ _ _ member c before
      rcases same with kept | ⟨_, sent⟩
      · exact kept ▸ earlier
      · exact sent ▸ earlier
    · obtain ⟨c, before, same⟩ := entry live
      rcases same with kept | ⟨_, sent⟩
      · exact kept ▸ sending.assigned connection c before
      · exact sent ▸ send_assigned (sending.assigned connection c before) _ _
    · obtain ⟨c, before, same⟩ := entry live
      have clean := sending.clean connection c before
      rcases same with kept | ⟨rfl, sent⟩
      · exact kept ▸ clean.more (Nat.le_succ _)
      · exact sent ▸ send_clean clean (sending.assigned _ c before) (announced c before)

/-- A poll of the behaviour hands out the next event that was produced, or none. -/
theorem poll_pairs {s s' : System PeerId ConnectionId σ} {handed : Nat}
    (step : s.turn transport .pollBehaviour = some s') (pairing : Pairing s handed) : Produces s s' [] ∧
      ((∃ connection event, s.behaviour.poll.1 = .ready (.generateEvent event) ∧
          s.produced[handed]? = some (connection, event) ∧ Pairing s' (handed + 1)) ∨
        (∀ event, s.behaviour.poll.1 ≠ .ready (.generateEvent event)) ∧ Pairing s' handed) := by
  obtain ⟨within, same⟩ := pairing
  dsimp only [System.turn] at step
  unfold Notifications.poll at step ⊢
  cases queue : s.behaviour.events with
  | nil =>
    rw [queue] at step
    cases step
    exact ⟨produces_nothing rfl (Finset.Subset.refl _), .inr ⟨nofun, within, same⟩⟩
  | cons event rest =>
    rw [queue] at step same
    cases event with
    | generateEvent told =>
      cases step
      refine ⟨produces_nothing rfl (Finset.Subset.refl _), .inl ?_⟩
      have pending : told :: rest.filterMap generated = (s.produced.drop handed).map Prod.snd := same
      cases waiting : s.produced.drop handed with
      | nil =>
        rw [waiting] at pending
        cases pending
      | cons origin later =>
        rw [waiting, List.map_cons] at pending
        obtain ⟨first, others⟩ := List.cons.inj pending
        have at_handed : s.produced[handed]? = some origin := by
          rw [← List.head?_drop, waiting]
          rfl
        refine ⟨origin.1, told, rfl, by rw [at_handed, first], (List.getElem?_eq_some_iff.mp at_handed).1, ?_⟩
        rw [← List.tail_drop, waiting]
        exact others
    | notifyHandler peer other message =>
      cases step
      have frame : ∀ s : System PeerId ConnectionId σ, (s.sendCommand other message).produced = s.produced ∧
          (s.sendCommand other message).behaviour = s.behaviour ∧ (s.sendCommand other message).used = s.used := by
        intro s
        unfold System.sendCommand
        split <;> exact ⟨rfl, rfl, rfl⟩
      obtain ⟨produced, behaviour, used⟩ := frame { s with behaviour := { s.behaviour with events := rest } }
      refine ⟨produces_nothing produced (Finset.subset_of_eq used.symm), .inr ⟨nofun, ?_, ?_⟩⟩
      · rw [produced]
        exact within
      · rw [produced, behaviour]
        exact same

end Runs

/-! ## The loop -/

section Histories
variable {PeerId ConnectionId : Type} [DecidableEq PeerId]

/-- The messages among the events. -/
def isNotification : ConnectionId × NotificationsToSwarm PeerId → Bool
  | (_, .notification _ _ _) => true
  | _ => false

def notifications (events : List (ConnectionId × NotificationsToSwarm PeerId)) : Nat := events.countP isNotification

/-- The sender that an event opens for a protocol of a peer. -/
def opensFor (key : PeerId × Nat) : ConnectionId × NotificationsToSwarm PeerId → Option (Sender ConnectionId)
  | (connection, .customProtocolOpen peerId index _ _ sender) =>
    if (peerId, index) = key then some ⟨connection, sender⟩ else none
  | _ => none

/-- The sender of the last time a protocol of a peer was opened. -/
def latest (key : PeerId × Nat) (events : List (ConnectionId × NotificationsToSwarm PeerId)) :
    Option (Sender ConnectionId) := (events.filterMap (opensFor key)).getLast?

/-- What an event is answered with, behind these. -/
def answer (payload : Bytes) (past : List (ConnectionId × NotificationsToSwarm PeerId)) :
    ConnectionId × NotificationsToSwarm PeerId → List (Sender ConnectionId × Bytes)
  | (_, .notification peerId _ _) =>
    if notifications past < 30 then ((latest (peerId, transactionsIndex) past).map fun sender => (sender, payload)).toList
    else []
  | _ => []

def answers (payload : Bytes) :
    List (ConnectionId × NotificationsToSwarm PeerId) → List (ConnectionId × NotificationsToSwarm PeerId) →
      List (Sender ConnectionId × Bytes)
  | _, [] => []
  | past, event :: later => answer payload past event ++ answers payload (past ++ [event]) later

variable {payload : Bytes} {past : List (ConnectionId × NotificationsToSwarm PeerId)}
  {event : ConnectionId × NotificationsToSwarm PeerId}

theorem answers_snoc (events : List (ConnectionId × NotificationsToSwarm PeerId)) :
    answers payload past (events ++ [event]) = answers payload past events ++ answer payload (past ++ events) event := by
  induction events generalizing past with
  | nil => simp [answers]
  | cons first later ih => simp [answers, ih]

/-- The loop is where the events have brought it: it has the sender of each last
opening, and counts down the messages. -/
structure Follows (s : Submission PeerId ConnectionId) (running : Bool)
    (events : List (ConnectionId × NotificationsToSwarm PeerId)) : Prop where
  senders : ∀ key, s.protocolSenders.lookup key = latest key events
  count : if running then notifications events + s.closeAfter = 30 else notifications events = 31

theorem latest_snoc (key : PeerId × Nat) (events : List (ConnectionId × NotificationsToSwarm PeerId)) :
    latest key (events ++ [event]) = (opensFor key event).or (latest key events) := by
  unfold latest
  rw [List.filterMap_append]
  cases opens : opensFor key event with
  | none => rw [List.filterMap_cons_none opens, List.filterMap_nil, List.append_nil, Option.none_or]
  | some sender => rw [List.filterMap_cons_some opens, List.filterMap_nil, List.getLast?_concat, Option.some_or]

omit [DecidableEq PeerId] in
theorem notifications_snoc (events : List (ConnectionId × NotificationsToSwarm PeerId)) :
    notifications (events ++ [event]) = notifications events + (isNotification event).toNat := by
  unfold notifications
  rw [List.countP_append, List.countP_singleton]
  cases isNotification event <;> rfl

/-- One event: the loop breaks at a message when it has counted down, and
otherwise answers what it should. -/
theorem handle_follows {s : Submission PeerId ConnectionId} (payload : Bytes) (connection : ConnectionId)
    (event : NotificationsToSwarm PeerId) (follows : Follows s true past) :
    match s.handle payload connection event with
    | none => Follows s false (past ++ [(connection, event)]) ∧ answer payload past (connection, event) = []
    | some (s', sends) => Follows s' true (past ++ [(connection, event)]) ∧
        answer payload past (connection, event) = sends.toList ∧ s'.closeAfter ≤ s.closeAfter ∧
        ∀ sender message, sends = some (sender, message) → message = payload ∧ s'.closeAfter + 1 = s.closeAfter ∧
          ∃ peer, latest (peer, transactionsIndex) past = some sender := by
  obtain ⟨senders, count⟩ := follows
  have counted : notifications past + s.closeAfter = 30 := count
  have unopened : isNotification (connection, event) = true →
      ∀ key, latest key (past ++ [(connection, event)]) = latest key past := by
    intro message key
    cases event <;> simp [isNotification] at message
    rw [latest_snoc]
    rfl
  cases event with
  | customProtocolOpen peer index handshake inbound channel =>
    refine ⟨⟨fun key => ?_, ?_⟩, rfl, Nat.le_refl _, nofun⟩
    · show (s.protocolSenders.insert (peer, index) ⟨connection, channel⟩).lookup key = _
      rw [latest_snoc]
      by_cases same : key = (peer, index)
      · subst same
        rw [Finmap.lookup_insert]
        simp [opensFor]
      · rw [Finmap.lookup_insert_of_ne _ same, senders]
        simp [opensFor, Ne.symm same]
    · rw [if_pos rfl, notifications_snoc]
      exact counted
  | customProtocolClosed peer index =>
    refine ⟨⟨fun key => ?_, ?_⟩, rfl, Nat.le_refl _, nofun⟩
    · rw [latest_snoc, senders]
      rfl
    · rw [if_pos rfl, notifications_snoc]
      exact counted
  | notification peer index message =>
    have one : notifications (past ++ [(connection, .notification peer index message)]) = notifications past + 1 :=
      notifications_snoc past
    unfold Submission.handle
    by_cases out : s.closeAfter = 0
    · simp only [if_pos out]
      refine ⟨⟨fun key => (senders key).trans (unopened rfl key).symm, ?_⟩, ?_⟩
      · rw [if_neg Bool.false_ne_true, one]
        omega
      · exact if_neg (by omega)
    · simp only [if_neg out]
      refine ⟨⟨fun key => (senders key).trans (unopened rfl key).symm, ?_⟩, ?_, Nat.sub_le _ _, ?_⟩
      · rw [if_pos rfl, one]
        dsimp only
        omega
      · rw [senders]
        exact if_pos (by omega)
      · intro sender message sends
        obtain ⟨found, held, same⟩ := Option.map_eq_some_iff.mp sends
        cases same
        exact ⟨rfl, by omega, peer, (senders _).symm.trans held⟩

end Histories

section Submissions
variable {PeerId ConnectionId σ ω : Type} [DecidableEq PeerId] [DecidableEq ConnectionId] {transport : Transport σ ω}
  {payload : Bytes} {t t' : Submitting PeerId ConnectionId σ} {l : SystemTurn PeerId ConnectionId σ ω}
  {sent : List (Sender ConnectionId × Bytes)}

/-- The events the loop was handed, with the connections they are about. -/
def Submitting.events (t : Submitting PeerId ConnectionId σ) : List (ConnectionId × NotificationsToSwarm PeerId) :=
  t.system.produced.take t.handed

/-- What a turn makes the loop send. -/
def Submitting.sends (payload : Bytes) (t : Submitting PeerId ConnectionId σ)
    (_ : SystemTurn PeerId ConnectionId σ ω) (t' : Submitting PeerId ConnectionId σ) : List (Sender ConnectionId × Bytes) :=
  if t'.handed = t.handed then []
  else match t.system.produced[t.handed]? with
    | none => []
    | some origin => match t.submission.handle payload origin.1 origin.2 with
      | some (_, some send) => [send]
      | _ => []

/-- What holds all along a run of the loop and its swarm. -/
structure Submits (payload : Bytes) (sent : List (Sender ConnectionId × Bytes)) (t : Submitting PeerId ConnectionId σ) :
    Prop where
  pairing : Pairing t.system t.handed
  sending : Sending payload (30 - t.submission.closeAfter) t.system
  follows : Follows t.submission t.running t.events
  answered : sent = answers payload [] t.events

omit [DecidableEq PeerId] in
theorem start_send_frame (s : System PeerId ConnectionId σ) (sender : Sender ConnectionId) (message : Bytes) :
    (startSend s sender message).produced = s.produced ∧ (startSend s sender message).behaviour = s.behaviour := by
  unfold startSend
  split <;> exact ⟨rfl, rfl⟩

/-- The loop is handed the next event. -/
theorem receive_submits {system : System PeerId ConnectionId σ} {connection : ConnectionId}
    {event : NotificationsToSwarm PeerId} (submits : Submits payload sent t) (running : t.running = true)
    (next : t.system.produced[t.handed]? = some (connection, event)) (produced : system.produced = t.system.produced)
    (pairing : Pairing system (t.handed + 1)) (sending : Sending payload (30 - t.submission.closeAfter) system)
    (turn : t' = ({ t with system := system, handed := t.handed + 1 } : Submitting PeerId ConnectionId σ).receive payload
      connection event) : Submits payload (sent ++ t.sends payload l t') t' := by
  have follows := submits.follows
  rw [running] at follows
  have handled := handle_follows payload connection event follows
  have past : system.produced.take (t.handed + 1) = t.events ++ [(connection, event)] := by
    rw [produced, List.take_add_one, next]
    rfl
  have count : notifications t.events + t.submission.closeAfter = 30 := follows.count
  have answered : answers payload [] (t.events ++ [(connection, event)]) =
      sent ++ answer payload t.events (connection, event) := by
    rw [answers_snoc, submits.answered]
    rfl
  have moved : t'.handed = t.handed + 1 := by
    rw [turn]
    unfold Submitting.receive
    split <;> rfl
  have sends : t.sends payload l t' = match t.submission.handle payload connection event with
      | some (_, some send) => [send]
      | _ => [] := by
    unfold Submitting.sends
    rw [moved, if_neg (Nat.succ_ne_self _), next]
  unfold Submitting.receive at turn
  dsimp only at turn
  rcases round : t.submission.handle payload connection event with _ | ⟨submission, _ | ⟨sender, message⟩⟩
  all_goals
    rw [round] at handled
    rw [round] at sends turn
    dsimp only at turn sends
    rw [sends]
    subst turn
  · obtain ⟨after, nothing⟩ := handled
    refine ⟨pairing, sending, ?_, ?_⟩
    · rw [Submitting.events, past]
      exact after
    · rw [Submitting.events, past, answered, nothing]
  · obtain ⟨after, nothing, less, _⟩ := handled
    refine ⟨pairing, ?_, ?_, ?_⟩
    · refine ⟨sending.used, sending.known, sending.told, sending.assigned, fun connection c live => ?_⟩
      exact (sending.clean connection c live).more (Nat.sub_le_sub_left less 30)
    · rw [Submitting.events, past, running]
      exact after
    · rw [Submitting.events, past, answered, nothing]
      rfl
  · obtain ⟨after, one, less, sends⟩ := handled
    obtain ⟨rfl, counted, peer, held⟩ := sends sender message rfl
    obtain ⟨same, behaviour⟩ := start_send_frame system sender message
    refine ⟨?_, ?_, ?_, ?_⟩
    · unfold Pairing
      rw [same, behaviour]
      exact pairing
    · have limit : 30 - submission.closeAfter = 30 - t.submission.closeAfter + 1 := by omega
      rw [limit]
      refine start_send_sending sending fun c live => ?_
      -- the sender was told of with its channel
      have member := List.mem_of_getLast? held
      obtain ⟨origin, noted, opens⟩ := List.mem_filterMap.mp member
      obtain ⟨from_, told⟩ := origin
      cases told with
      | customProtocolOpen name index handshake inbound channel =>
        obtain ⟨same, found⟩ := Option.ite_none_right_eq_some.mp opens
        cases same
        cases found
        exact sending.told _ _ _ _ _ _ (produced ▸ List.mem_of_mem_take noted) c live
      | customProtocolClosed => cases opens
      | notification => cases opens
    · rw [Submitting.events, same, past, running]
      exact after
    · rw [Submitting.events, same, past, answered, one]
      rfl

/-- A turn of the swarm that hands nothing to the loop. -/
theorem quiet_submits {system : System PeerId ConnectionId σ}
    {added : List (ConnectionId × NotificationsToSwarm PeerId)} (submits : Submits payload sent t)
    (pairing : Pairing system t.handed) (sending : Sending payload (30 - t.submission.closeAfter) system)
    (produces : Produces t.system system added) (turn : t' = { t with system := system }) :
    Submits payload (sent ++ t.sends payload l t') t' := by
  subst turn
  have same : system.produced.take t.handed = t.events := by
    rw [produces.produced, List.take_append_of_le_length submits.pairing.1]
    rfl
  have none : t.sends payload l { t with system := system } = [] := if_pos rfl
  rw [none, List.append_nil]
  exact ⟨pairing, sending, by rw [Submitting.events, same]; exact submits.follows,
    by rw [Submitting.events, same]; exact submits.answered⟩

theorem turn_submits (submits : Submits payload sent t) (step : t.turn transport payload l = some t') :
    Submits payload (sent ++ t.sends payload l t') t' := by
  obtain ⟨running, step⟩ := Option.ite_none_right_eq_some.mp step
  have swarm : ∀ {system}, t.system.turn transport l = some system → l ≠ .pollBehaviour →
      (∀ connection channel message, l ≠ .handler connection (.send channel message)) →
      Submits payload (sent ++ t.sends payload l { t with system := system }) { t with system := system } := by
    intro system turned other unsent
    obtain ⟨pairing, added, produces⟩ := turn_pairs turned other submits.pairing
    exact quiet_submits submits pairing (turn_sending submits.sending turned produces unsent) produces rfl
  cases l with
  | pollBehaviour =>
    obtain ⟨system, turned, step⟩ := Option.bind_eq_some_iff.mp step
    obtain ⟨produces, handed⟩ := poll_pairs turned submits.pairing
    have sending := turn_sending submits.sending turned produces nofun
    rcases handed with ⟨connection, event, polled, next, pairing⟩ | ⟨unpolled, pairing⟩
    · rw [polled, next] at step
      refine receive_submits submits running next ?_ pairing sending (Option.some.inj step).symm
      exact produces.produced.trans (List.append_nil _)
    · have kept : t' = { t with system := system } := by
        split at step
        · rename_i event polled
          exact absurd polled (unpolled event)
        · exact (Option.some.inj step).symm
      exact quiet_submits submits pairing sending produces kept
  | handler connection turn =>
    cases turn with
    | send channel message => cases step
    | _ =>
      obtain ⟨system, turned, rfl⟩ := Option.map_eq_some_iff.mp step
      exact swarm turned nofun (by simp)
  | _ =>
    obtain ⟨system, turned, rfl⟩ := Option.map_eq_some_iff.mp step
    exact swarm turned nofun nofun

theorem start_submits (data : ProtocolsData) : Submits payload []
    (⟨(notificationRuns transport data).start, 0, .new, true⟩ : Submitting PeerId ConnectionId σ) := by
  refine ⟨⟨Nat.le_refl _, rfl⟩, ⟨fun connection c live => ?_, nofun, nofun, fun connection c live => ?_,
    fun connection c live => ?_⟩, ⟨fun key => ?_, rfl⟩, rfl⟩
  all_goals first | cases live | rfl

variable {data : ProtocolsData} {extrinsics : String}
  {m : Machine (Submitting PeerId ConnectionId σ) (SystemTurn PeerId ConnectionId σ ω)}
  {turns : List (SystemTurn PeerId ConnectionId σ ω)}

theorem run_submits (started : submitExtrinsics transport data extrinsics = .ok m) (run : m.replay turns = some t) :
    ∃ payload, hexDecode (trimStartMatches extrinsics) = .ok payload ∧
      Submits payload (m.trace (Submitting.sends payload) turns) t := by
  unfold submitExtrinsics at started
  cases decoded : hexDecode (trimStartMatches extrinsics) with
  | error error =>
    rw [decoded] at started
    cases started
  | ok payload =>
    rw [decoded] at started
    cases started
    refine ⟨payload, rfl, ?_⟩
    exact Machine.trace_invariant (I := fun sent t => Submits payload sent t)
      (fun past s l s' held step => turn_submits held step) (start_submits data) run

/-- In every run, whatever the peers do: nothing waits to be sent but copies of
the decoded extrinsics, at most thirty on a protocol, and only on transactions
protocols; so every message that a poll takes out is one of them. -/
theorem only_payload_submitted (started : submitExtrinsics transport data extrinsics = .ok m)
    (run : m.replay turns = some t) :
    ∃ payload, hexDecode (trimStartMatches extrinsics) = .ok payload ∧
      ∀ connection c, t.system.connections.lookup connection = some c →
        (∀ i recv, Receives c.run.handler.protocols i recv → recv.messages.length ≤ 30 ∧
          ∀ message ∈ recv.messages, i = transactionsIndex ∧ message = payload) ∧
        ∀ w, ∀ note ∈ pollRounds transport c.run.handler w,
          (∃ recv, Receives c.run.handler.protocols transactionsIndex recv ∧ note.channel = recv.channel) ∧
            ∀ message ∈ takes note.channel [note], message = payload := by
  obtain ⟨payload, decoded, submits⟩ := run_submits started run
  refine ⟨payload, decoded, fun connection c live => ?_⟩
  have clean := submits.sending.clean connection c live
  refine ⟨fun i recv receives => ?_, fun w note member => ?_⟩
  · obtain ⟨copies, few⟩ := clean i recv receives
    exact ⟨few.trans (Nat.sub_le _ _), copies⟩
  · obtain ⟨i, recv, receives, channel, waiting, within⟩ := poll_rounds_drawn c.run.handler w note member
    obtain ⟨copies, _⟩ := clean i recv receives
    obtain ⟨first, front⟩ := List.exists_mem_of_ne_nil _ waiting
    obtain rfl := (copies first front).1
    rw [channel]
    exact ⟨⟨recv, receives, rfl⟩, fun message taken => (copies message (within message taken)).2⟩

/-- In every run, the loop goes on for exactly the first thirty messages and
breaks at the next. It has sent, for each of these messages and in their order,
the payload to the transactions protocol that its peer opened last before it,
where there is one. -/
theorem submissions_follow_events (started : submitExtrinsics transport data extrinsics = .ok m)
    (run : m.replay turns = some t) :
    ∃ payload, hexDecode (trimStartMatches extrinsics) = .ok payload ∧
      m.trace (Submitting.sends payload) turns = answers payload [] t.events ∧
      (t.running = true ↔ notifications t.events ≤ 30) ∧ notifications t.events ≤ 31 ∧
      ∀ key, t.submission.protocolSenders.lookup key = latest key t.events := by
  obtain ⟨payload, decoded, submits⟩ := run_submits started run
  have count := submits.follows.count
  refine ⟨payload, decoded, submits.answered, ?_, ?_, submits.follows.senders⟩
  · cases running : t.running with
    | true =>
      rw [running, if_pos rfl] at count
      exact ⟨fun _ => by omega, fun _ => rfl⟩
    | false =>
      rw [running, if_neg Bool.false_ne_true] at count
      exact ⟨nofun, fun few => by omega⟩
  · cases running : t.running with
    | true =>
      rw [running, if_pos rfl] at count
      omega
    | false =>
      rw [running, if_neg Bool.false_ne_true] at count
      omega

end Submissions

/-- A socket that takes what is sent, and has a message to read where the world
of the poll says so. -/
def talking : Transport Unit Bool where
  pollReady socket w := (.ready (.ok ()), socket, w)
  startSend _ socket w := (.ok (), socket, w)
  pollFlush socket w := (.ready (.ok ()), socket, w)
  pollClose socket w := (.ready (.ok ()), socket, w)
  pollNext socket w := (if w then .ready (some (.ok [7])) else .pending, socket, w)

def talkingRuns : Machine (Submitting Nat Nat Unit) (SystemTurn Nat Nat Unit Bool) where
  start := ⟨(notificationRuns talking .zero).start, 0, .new, true⟩
  next := Submitting.turn talking [1, 2]

/-- The transactions protocol opens on a connection, the remote opens its half
and sends a message, and both are handed to the loop. -/
def talkingTurns : List (SystemTurn Nat Nat Unit Bool) :=
  [.established 0 7 (.dialer []), .pollBehaviour, .pollBehaviour, .command 0, .command 0, .handler 0 (.poll false),
    .handler 0 (.poll false), .handler 0 (.outbound ⟨[4], ⟨()⟩⟩ 1), .handler 0 (.poll false),
    .handler 0 (.inbound ⟨⟨[4], ⟨(), .waiting, "/00/transactions/1"⟩⟩, 1⟩), .handler 0 (.poll true), .deliver 0, .deliver 0,
    .pollBehaviour, .pollBehaviour]

theorem talking_started : submitExtrinsics talking .zero "0x0102" = .ok talkingRuns := rfl

/-- The next poll sends the extrinsic. -/
theorem extrinsic_taken : ∃ t c, talkingRuns.replay talkingTurns = some t ∧
    t.system.connections.lookup 0 = some c ∧ (pollRounds talking c.run.handler false).length = 1 ∧
      ∃ payload, hexDecode (trimStartMatches "0x0102") = .ok payload ∧
        ∀ note ∈ pollRounds talking c.run.handler false, ∀ message ∈ takes note.channel [note], message = payload := by
  have ran : ((talkingRuns.replay talkingTurns).bind fun t => (t.system.connections.lookup 0).map fun c =>
      (pollRounds talking c.run.handler false).length) = some 1 := by decide +kernel
  obtain ⟨t, run, ran⟩ := Option.bind_eq_some_iff.mp ran
  obtain ⟨c, live, one⟩ := Option.map_eq_some_iff.mp ran
  obtain ⟨payload, decoded, submitted⟩ := only_payload_submitted talking_started run
  exact ⟨t, c, run, live, one, payload, decoded, fun note member => ((submitted 0 c live).2 false note member).2⟩

/-- The message was answered. -/
theorem message_answered : ∃ t, talkingRuns.replay talkingTurns = some t ∧ t.running = true ∧
    ∃ payload, hexDecode (trimStartMatches "0x0102") = .ok payload ∧
      talkingRuns.trace (Submitting.sends payload) talkingTurns = answers payload [] t.events ∧
      notifications t.events ≤ 30 := by
  have ran : (talkingRuns.replay talkingTurns).map Submitting.running = some true := by decide +kernel
  obtain ⟨t, run, running⟩ := Option.map_eq_some_iff.mp ran
  obtain ⟨payload, decoded, answered, goes_on, _⟩ := submissions_follow_events talking_started run
  exact ⟨t, run, running, payload, decoded, answered, goes_on.mp running⟩

end Subp2pExplorer.Network
