import Subp2pExplorer.Lib.Reports
import Subp2pExplorer.Lib.Runs
import Subp2pExplorer.Backends.Backends

/-! Query ids of a `Libp2pBackend`. A call of `find_node` goes through the
background task and only then enters its id into the translation, when the
result of the query may already be queued. The call and the background task are
steps of their own here; the channels between them are unbounded, since a full
one only delays the sender. -/
namespace Subp2pExplorer.Backends
open Lib Notifications

/-- The Kademlia query an event reports the end of. -/
def SwarmEvent.answers {KadId Peer Addr : Type} : SwarmEvent KadId Peer Addr → Option KadId
  | .closestPeers id _ _ _ => some id
  | _ => none

namespace Libp2pBackend

/-! ## The backend and its background task -/

/-- The reply to `findNode` goes to the call in progress, of which there is one. -/
inductive InnerCommand (Peer Addr : Type) where
  | addKnownAddress (peerId : Peer) (address : Addr)
  | findNode (peerId : Peer)

def InnerCommand.isFindNode {Peer Addr : Type} : InnerCommand Peer Addr → Bool
  | .addKnownAddress _ _ => false
  | .findNode _ => true

/-- The ends of the two channels. A receiver holds the events sent to it, a
sender the commands it sent that were not yet received. -/
structure Channels (KadId Peer Addr : Type) where
  events : List (SwarmEvent KadId Peer Addr)
  commands : List (InnerCommand Peer Addr)

/-- A poll may find no event and no room although there are. -/
def channelSources {KadId Peer Addr : Type} (ready room : Bool) :
    Libp2pSources (Channels KadId Peer Addr) KadId Peer Addr where
  rx channel :=
    match ready, channel.events with
    | true, event :: rest => (.ready (some event), { channel with events := rest })
    | _, _ => (.pending, channel)
  send action channel :=
    if room then
      some (.ready (), { channel with
        commands := channel.commands ++ [.addKnownAddress action.peerId action.address] })
    else some (.pending, channel)

/-- Where a call of `find_node` is: there is none, its command was sent, or the
background task replied. -/
inductive FindNodeCall (KadId : Type) where
  | idle
  | sent
  | replied (query : KadId)
  deriving DecidableEq

/-- The number of `findNode` commands that are on their way. -/
def FindNodeCall.inFlight {KadId : Type} : FindNodeCall KadId → Nat
  | .sent => 1
  | _ => 0

/-- A backend with what its background task keeps: the ids Kademlia has given
out and the queries that have no result yet. -/
structure Session (KadId Peer Addr : Type) where
  backend : Libp2pBackend (Channels KadId Peer Addr) KadId Peer Addr
  nextQueryId : Nat
  call : FindNodeCall KadId
  started : Finset KadId
  running : Finset KadId

inductive Label (KadId Peer Addr : Type) where
  | callFindNode (peer : Peer)
  | resume
  | addKnownPeer (peer : Peer) (address : Addr)
  | poll (ready room : Bool)
  | command (fresh : KadId)
  | event (event : SwarmEvent KadId Peer Addr)

/-- What is seen from outside: the id that a call returns, with the query that
was started for it, and the event that a poll yields, with the one it received. -/
inductive Output (KadId Peer Addr PeerId Multiaddr : Type) where
  | returned (queryId : QueryId) (query : KadId)
  | yielded (event : NetworkEvent PeerId Multiaddr) (received : Option (SwarmEvent KadId Peer Addr))

namespace Session
variable {KadId Peer Addr PeerId Multiaddr : Type}

def new : Session KadId Peer Addr := ⟨⟨⟨[], []⟩, ⟨[], []⟩, ∅, ∅, []⟩, 0, .idle, ∅, ∅⟩

section Parts
variable (s : Session KadId Peer Addr)

def events : List (SwarmEvent KadId Peer Addr) := s.backend.rx.events

def commands : List (InnerCommand Peer Addr) := s.backend.commandTx.commands

/-- The results that wait to be received. -/
def queued : List KadId := s.events.filterMap SwarmEvent.answers

/-- A query of which the backend has not yet received the result. -/
def Outstanding (id : KadId) : Prop := id ∈ s.running ∨ id ∈ s.queued

def setCommands (commands : List (InnerCommand Peer Addr)) : Session KadId Peer Addr :=
  { s with backend := { s.backend with commandTx := { s.backend.commandTx with commands := commands } } }

def setEvents (events : List (SwarmEvent KadId Peer Addr)) : Session KadId Peer Addr :=
  { s with backend := { s.backend with rx := { s.backend.rx with events := events } } }

end Parts

section Steps
variable [DecidableEq KadId] [DecidableEq Peer] (into : Conversion Peer Addr PeerId Multiaddr) (fromBytes : Bytes → Option PeerId)

/-- `find_node` to where it waits for the reply. -/
def callFindNode (peer : Peer) (s : Session KadId Peer Addr) : Option (Session KadId Peer Addr) :=
  match s.call with
  | .idle => some { s.setCommands (s.commands ++ [.findNode peer]) with call := .sent }
  | _ => none

/-- The rest of `find_node`. The counter wraps. -/
def resume (s : Session KadId Peer Addr) : Option (QueryId × KadId × Session KadId Peer Addr) :=
  match s.call with
  | .replied query =>
    some (⟨s.nextQueryId⟩, query, { s with
      backend := { s.backend with queryTranslate := s.backend.queryTranslate.insert query ⟨s.nextQueryId⟩ }
      nextQueryId := (s.nextQueryId + 1) % 2 ^ 64
      call := .idle })
  | _ => none

/-- `add_known_peer` sends each address. -/
def addKnownPeer (peer : Peer) (address : Addr) (s : Session KadId Peer Addr) : Option (Session KadId Peer Addr) :=
  match s.call with
  | .idle => some (s.setCommands (s.commands ++ [.addKnownAddress peer address]))
  | _ => none

/-- The stream is not polled while a call borrows it. -/
def poll (ready room : Bool) (s : Session KadId Peer Addr) :
    Option (Poll (Option (NetworkEvent PeerId Multiaddr)) × Session KadId Peer Addr) :=
  match s.call with
  | .idle => do
    let (result, backend, _) ← s.backend.pollNext (channelSources ready room) into fromBytes
    some (result, { s with backend := backend })
  | _ => none

/-- `handle_cmd`. Kademlia gives a query an id that it did not give before; where
no call waits for it, the task panics. -/
def handleCmd (fresh : KadId) (s : Session KadId Peer Addr) : Option (Session KadId Peer Addr) :=
  match s.commands with
  | [] => none
  | .addKnownAddress _ _ :: rest => some (s.setCommands rest)
  | .findNode _ :: rest =>
    match s.call with
    | .sent =>
      if fresh ∈ s.started then none
      else some { s.setCommands rest with
        call := .replied fresh
        started := insert fresh s.started
        running := insert fresh s.running }
    | _ => none

/-- `handle_swarm_event`. A result is that of a running query, which ends. -/
def handleSwarmEvent (event : SwarmEvent KadId Peer Addr) (s : Session KadId Peer Addr) :
    Option (Session KadId Peer Addr) :=
  match event.answers with
  | none => some (s.setEvents (s.events ++ [event]))
  | some id =>
    if id ∈ s.running then some { s.setEvents (s.events ++ [event]) with running := s.running.erase id } else none

/-- The event that a poll returns, with the one that was first in the channel. -/
def yields (s : Session KadId Peer Addr) :
    Poll (Option (NetworkEvent PeerId Multiaddr)) → List (Output KadId Peer Addr PeerId Multiaddr)
  | .ready (some event) => [.yielded event s.events.head?]
  | _ => []

def step (s : Session KadId Peer Addr) :
    Label KadId Peer Addr → Option (List (Output KadId Peer Addr PeerId Multiaddr) × Session KadId Peer Addr)
  | .callFindNode peer => (s.callFindNode peer).map fun s' => ([], s')
  | .resume => s.resume.map fun (queryId, query, s') => ([.returned queryId query], s')
  | .addKnownPeer peer address => (s.addKnownPeer peer address).map fun s' => ([], s')
  | .poll ready room => (s.poll into fromBytes ready room).map fun (result, s') =>
    (s.yields result, s')
  | .command fresh => (s.handleCmd fresh).map fun s' => ([], s')
  | .event event => (s.handleSwarmEvent event).map fun s' => ([], s')

end Steps

/-! ## The translation against the queries -/

variable {s s' : Session KadId Peer Addr}

/-- The outstanding queries are those in the translation and the one, if any, of
which the call has the id and has not entered it. -/
structure Consistent (s : Session KadId Peer Addr) : Prop where
  commands : s.commands.countP InnerCommand.isFindNode = s.call.inFlight
  apart : s.queued.Nodup
  ended : ∀ id ∈ s.queued, id ∉ s.running
  known : ∀ id, s.Outstanding id → id ∈ s.started
  translated : ∀ id, s.Outstanding id ↔ id ∈ s.backend.queryTranslate ∨ s.call = .replied id
  entered : ∀ id, s.call = .replied id → id ∉ s.backend.queryTranslate

theorem Consistent.reported (consistent : s.Consistent) : Reported s.started s.running s.queued :=
  ⟨consistent.apart, consistent.ended, consistent.known⟩

theorem consistent_new : (new : Session KadId Peer Addr).Consistent where
  commands := rfl
  apart := List.nodup_nil
  ended id queued := nomatch queued
  known id outstanding := by simp [Outstanding, new, queued, events] at outstanding
  translated id := by
    rw [show (new : Session KadId Peer Addr).backend.queryTranslate = ∅ from rfl]
    simp [Outstanding, new, queued, events, Finmap.notMem_empty]
  entered id replied := nomatch replied

/-- A step that leaves the translation, the call and the outstanding queries. -/
theorem Consistent.kept (consistent : s.Consistent)
    (commands : s'.commands.countP InnerCommand.isFindNode = s.commands.countP InnerCommand.isFindNode)
    (call : s'.call = s.call) (translate : s'.backend.queryTranslate = s.backend.queryTranslate)
    (reported : Reported s'.started s'.running s'.queued)
    (outstanding : ∀ id, s'.Outstanding id ↔ s.Outstanding id) : s'.Consistent where
  commands := by rw [commands, call, consistent.commands]
  apart := reported.apart
  ended := reported.ended
  known := reported.known
  translated id := by rw [outstanding, translate, call, consistent.translated]
  entered id replied := by
    rw [translate]
    exact consistent.entered id (call.symm.trans replied)

theorem call_origin {peer : Peer} (called : s.callFindNode peer = some s') :
    s.call = .idle ∧ s' = { s.setCommands (s.commands ++ [.findNode peer]) with call := .sent } := by
  unfold callFindNode at called
  cases idle : s.call with
  | sent => simp [idle] at called
  | replied _ => simp [idle] at called
  | idle =>
    simp only [idle, Option.some_inj] at called
    exact ⟨rfl, called.symm⟩

theorem consistent_call (consistent : s.Consistent) {peer : Peer} (called : s.callFindNode peer = some s') :
    s'.Consistent := by
  obtain ⟨idle, rfl⟩ := call_origin called
  have none_sent := consistent.commands
  rw [idle] at none_sent
  refine ⟨?_, consistent.apart, consistent.ended, consistent.known, fun id => ?_, fun id replied => nomatch replied⟩
  · show (s.commands ++ [InnerCommand.findNode peer]).countP InnerCommand.isFindNode = 1
    rw [List.countP_append, none_sent]
    rfl
  · have before := consistent.translated id
    rw [idle] at before
    refine before.trans (or_congr_right ?_)
    simp

theorem add_origin {peer : Peer} {address : Addr} (added : s.addKnownPeer peer address = some s') :
    s' = s.setCommands (s.commands ++ [.addKnownAddress peer address]) := by
  unfold addKnownPeer at added
  cases idle : s.call with
  | sent => simp [idle] at added
  | replied _ => simp [idle] at added
  | idle =>
    simp only [idle, Option.some_inj] at added
    exact added.symm

theorem consistent_add (consistent : s.Consistent) {peer : Peer} {address : Addr}
    (added : s.addKnownPeer peer address = some s') : s'.Consistent := by
  obtain rfl := add_origin added
  refine consistent.kept ?_ rfl rfl consistent.reported fun _ => Iff.rfl
  show (s.commands ++ [InnerCommand.addKnownAddress peer address]).countP InnerCommand.isFindNode = _
  rw [List.countP_append]
  rfl

section Kept
variable [DecidableEq KadId]

theorem resume_origin {queryId : QueryId} {query : KadId} (resumed : s.resume = some (queryId, query, s')) :
    s.call = .replied query ∧ queryId = ⟨s.nextQueryId⟩ ∧ s' = { s with
      backend := { s.backend with queryTranslate := s.backend.queryTranslate.insert query ⟨s.nextQueryId⟩ }
      nextQueryId := (s.nextQueryId + 1) % 2 ^ 64
      call := .idle } := by
  unfold resume at resumed
  cases replied : s.call with
  | sent => simp [replied] at resumed
  | idle => simp [replied] at resumed
  | replied id =>
    simp only [replied, Option.some_inj, Prod.mk.injEq] at resumed
    obtain ⟨rfl, rfl, rfl⟩ := resumed
    exact ⟨rfl, rfl, rfl⟩

theorem consistent_resume (consistent : s.Consistent) {queryId : QueryId} {query : KadId}
    (resumed : s.resume = some (queryId, query, s')) : s'.Consistent := by
  obtain ⟨replied, -, rfl⟩ := resume_origin resumed
  have none_sent := consistent.commands
  rw [replied] at none_sent
  refine ⟨none_sent, consistent.apart, consistent.ended, consistent.known, fun id => ?_, fun id replied => nomatch replied⟩
  have before := consistent.translated id
  rw [replied] at before
  show s.Outstanding id ↔ id ∈ s.backend.queryTranslate.insert query ⟨s.nextQueryId⟩ ∨ _
  rw [before, Finmap.mem_insert]
  simp [or_comm, eq_comm]

/-- A `findNode` command starts a query whose id is new. -/
theorem command_cases {fresh : KadId} (received : s.handleCmd fresh = some s') :
    s'.backend.queryTranslate = s.backend.queryTranslate ∧ s'.nextQueryId = s.nextQueryId ∧ s'.queued = s.queued ∧
      ((s'.commands.countP InnerCommand.isFindNode = s.commands.countP InnerCommand.isFindNode ∧ s'.call = s.call ∧
          s'.started = s.started ∧ s'.running = s.running) ∨
        (s.commands.countP InnerCommand.isFindNode = s'.commands.countP InnerCommand.isFindNode + 1 ∧
          s.call = .sent ∧ s'.call = .replied fresh ∧ fresh ∉ s.started ∧ s'.started = insert fresh s.started ∧
          s'.running = insert fresh s.running)) := by
  unfold handleCmd at received
  cases commands : s.commands with
  | nil => simp [commands] at received
  | cons command rest =>
    cases command with
    | addKnownAddress peer address =>
      simp only [commands, Option.some_inj] at received
      subst received
      exact ⟨rfl, rfl, rfl, .inl ⟨rfl, rfl, rfl, rfl⟩⟩
    | findNode peer =>
      cases call : s.call with
      | idle => simp [commands, call] at received
      | replied _ => simp [commands, call] at received
      | sent =>
        simp only [commands, call, Option.ite_none_left_eq_some, Option.some_inj] at received
        obtain ⟨unseen, rfl⟩ := received
        exact ⟨rfl, rfl, rfl, .inr ⟨List.countP_cons_of_pos rfl, rfl, rfl, unseen, rfl, rfl⟩⟩

/-- No query that was known before is outstanding again. -/
theorem outstanding_command {fresh : KadId} (received : s.handleCmd fresh = some s') {id : KadId}
    (known : id ∈ s.started) (there : s'.Outstanding id) : s.Outstanding id := by
  obtain ⟨_, _, queued, ⟨_, _, _, running⟩ | ⟨_, _, _, unseen, _, running⟩⟩ := command_cases received
  · rw [Outstanding, running, queued] at there
    exact there
  · rw [Outstanding, running, queued, mem_started] at there
    exact there.resolve_left fun same => unseen (same ▸ known)

theorem consistent_command (consistent : s.Consistent) {fresh : KadId} (received : s.handleCmd fresh = some s') :
    s'.Consistent := by
  obtain ⟨translate, _, queued, ⟨commands, call, started, running⟩ | ⟨commands, sent, call, unseen, started, running⟩⟩ :=
    command_cases received
  · refine consistent.kept commands call translate ?_ fun id => ?_
    · rw [started, running, queued]
      exact consistent.reported
    · rw [Outstanding, running, queued, Outstanding]
  · have reported : Reported s'.started s'.running s'.queued := by
      rw [started, running, queued]
      exact consistent.reported.start unseen
    have outstanding : ∀ id, s'.Outstanding id ↔ id = fresh ∨ s.Outstanding id := by
      intro id
      rw [Outstanding, running, queued, mem_started, Outstanding]
    have unknown : ¬s.Outstanding fresh := fun there => unseen (consistent.known fresh there)
    refine ⟨?_, reported.apart, reported.ended, reported.known, fun id => ?_, fun id replied entry => ?_⟩
    · have sent_one := consistent.commands
      rw [sent, commands] at sent_one
      rw [call]
      exact Nat.succ_injective sent_one
    · rw [outstanding, consistent.translated, translate, sent, call]
      simp [or_comm, eq_comm]
    · rw [call] at replied
      cases replied
      rw [translate] at entry
      exact unknown ((consistent.translated fresh).mpr (.inl entry))

/-- An event that is a result moves its query from the running to the queued. -/
theorem event_cases {event : SwarmEvent KadId Peer Addr} (happened : s.handleSwarmEvent event = some s') :
    s'.commands = s.commands ∧ s'.call = s.call ∧ s'.nextQueryId = s.nextQueryId ∧ s'.started = s.started ∧
      s'.backend.queryTranslate = s.backend.queryTranslate ∧
      ((s'.queued = s.queued ∧ s'.running = s.running) ∨
        ∃ id ∈ s.running, s'.queued = s.queued ++ [id] ∧ s'.running = s.running.erase id) := by
  unfold handleSwarmEvent at happened
  have queued : (s.setEvents (s.events ++ [event])).queued = s.queued ++ [event].filterMap SwarmEvent.answers :=
    List.filterMap_append
  cases answers : event.answers with
  | none =>
    simp only [answers, Option.some_inj] at happened
    subst happened
    rw [List.filterMap_cons_none answers, List.filterMap_nil, List.append_nil] at queued
    exact ⟨rfl, rfl, rfl, rfl, rfl, .inl ⟨queued, rfl⟩⟩
  | some id =>
    simp only [answers, Option.ite_none_right_eq_some, Option.some_inj] at happened
    obtain ⟨runs, rfl⟩ := happened
    rw [List.filterMap_cons_some answers, List.filterMap_nil] at queued
    exact ⟨rfl, rfl, rfl, rfl, rfl, .inr ⟨id, runs, queued, rfl⟩⟩

theorem outstanding_event {event : SwarmEvent KadId Peer Addr} (happened : s.handleSwarmEvent event = some s')
    (id : KadId) : s'.Outstanding id ↔ s.Outstanding id := by
  obtain ⟨_, _, _, _, _, ⟨queued, running⟩ | ⟨ended, runs, queued, running⟩⟩ := event_cases happened
  · rw [Outstanding, queued, running, Outstanding]
  · rw [Outstanding, queued, running]
    exact mem_reported runs id

theorem consistent_event (consistent : s.Consistent) {event : SwarmEvent KadId Peer Addr}
    (happened : s.handleSwarmEvent event = some s') : s'.Consistent := by
  obtain ⟨commands, call, _, started, translate, moved⟩ := event_cases happened
  refine consistent.kept (by rw [commands]) call translate ?_ (outstanding_event happened)
  obtain ⟨queued, running⟩ | ⟨id, runs, queued, running⟩ := moved
  · rw [started, running, queued]
    exact consistent.reported
  · rw [started, running, queued]
    exact consistent.reported.report runs

end Kept

/-! ## What a poll does -/

section Polls
variable {into : Conversion Peer Addr PeerId Multiaddr} {fromBytes : Bytes → Option PeerId}

/-- The pending actions send no `findNode`. -/
theorem poll_each_sends {ready room : Bool} {actions rest : List (AddKnownAddress Peer Addr)}
    {channel channel' : Channels KadId Peer Addr} {polled : Poll Unit}
    (sent : pollEach (channelSources ready room).send actions channel = some (polled, rest, channel')) :
    channel'.commands.countP InnerCommand.isFindNode = channel.commands.countP InnerCommand.isFindNode := by
  induction actions generalizing channel polled rest with
  | nil =>
    simp only [pollEach, Option.some_inj, Prod.mk.injEq] at sent
    rw [sent.2.2]
  | cons action actions ih =>
    cases room with
    | true =>
      simp only [pollEach, channelSources, if_true, bind, Option.bind_some, Option.some_inj, Prod.mk.injEq] at sent
      rw [← sent.2.2]
      simp [InnerCommand.isFindNode]
    | false =>
      simp only [pollEach, channelSources, Bool.false_eq_true, if_false, bind, Option.bind_some,
        Option.bind_eq_some_iff, Option.some_inj, Prod.mk.injEq] at sent
      obtain ⟨⟨_, _, _⟩, later, _, _, rfl⟩ := sent
      exact ih later

theorem poll_actions_sends {ready room : Bool} {actions rest : List (AddKnownAddress Peer Addr)}
    {channel channel' : Channels KadId Peer Addr} {acted : Option (Poll (Option Unit))}
    (sent : pollActions (channelSources ready room).send actions channel = some (acted, rest, channel')) :
    channel'.commands.countP InnerCommand.isFindNode = channel.commands.countP InnerCommand.isFindNode := by
  unfold pollActions at sent
  split at sent
  · simp only [Option.some_inj, Prod.mk.injEq] at sent
    rw [sent.2.2]
  · simp only [bind, Option.bind_eq_some_iff] at sent
    obtain ⟨⟨polled, _, _⟩, each, sent⟩ := sent
    have kept := poll_each_sends each
    cases polled <;>
    · simp only [Option.some_inj, Prod.mk.injEq] at sent
      obtain ⟨_, _, rfl⟩ := sent
      exact kept

variable [DecidableEq KadId] [DecidableEq Peer]

/-- An event that reports no result leaves the translation; one that does takes
out the entry of its query. -/
theorem handle_cases {b b' : Libp2pBackend (Channels KadId Peer Addr) KadId Peer Addr}
    {event : SwarmEvent KadId Peer Addr} {result : Option (NetworkEvent PeerId Multiaddr)}
    (handled : b.handle into fromBytes event = some (result, b')) :
    b'.rx = b.rx ∧ b'.commandTx = b.commandTx ∧
      ((event.answers = none ∧ b'.queryTranslate = b.queryTranslate ∧
          ∀ queryId target peers, result ≠ some (.findNode queryId target peers)) ∨
        ∃ id queryId target peers, event.answers = some id ∧ b.queryTranslate.lookup id = some queryId ∧
          b'.queryTranslate = b.queryTranslate.erase id ∧ result = some (.findNode queryId target peers)) := by
  cases event with
  | closestPeers id timeout key peers =>
    simp only [handle, bind, Option.bind_eq_some_iff, Option.some_inj, Prod.mk.injEq] at handled
    obtain ⟨queryId, found, target, _, rfl, rfl⟩ := handled
    exact ⟨rfl, rfl, .inr ⟨id, queryId, target, _, rfl, found, rfl, rfl⟩⟩
  | _ =>
    simp only [handle, Option.some_inj, Prod.mk.injEq] at handled
    obtain ⟨rfl, rfl⟩ := handled
    exact ⟨rfl, rfl, .inl ⟨rfl, rfl, by simp⟩⟩

/-- A poll yields no result and leaves the translation, or receives the result
of a query and yields it under the id the translation has. -/
theorem poll_next_cases {ready room : Bool} {b b' : Libp2pBackend (Channels KadId Peer Addr) KadId Peer Addr}
    {result : Poll (Option (NetworkEvent PeerId Multiaddr))} {ctx : Context}
    (polled : b.pollNext (channelSources ready room) into fromBytes = some (result, b', ctx)) :
    b'.commandTx.commands.countP InnerCommand.isFindNode = b.commandTx.commands.countP InnerCommand.isFindNode ∧
      ((b'.queryTranslate = b.queryTranslate ∧
          b'.rx.events.filterMap SwarmEvent.answers = b.rx.events.filterMap SwarmEvent.answers ∧
          ∀ queryId target peers, result ≠ .ready (some (.findNode queryId target peers))) ∨
        ∃ event id queryId target peers, b.rx.events = event :: b'.rx.events ∧ event.answers = some id ∧
          b.queryTranslate.lookup id = some queryId ∧ b'.queryTranslate = b.queryTranslate.erase id ∧
          result = .ready (some (.findNode queryId target peers))) := by
  simp only [pollNext, bind, Option.bind_eq_some_iff] at polled
  obtain ⟨⟨_, pendingActions, commandTx⟩, acted, polled⟩ := polled
  have kept := poll_actions_sends acted
  cases events : b.rx.events with
  | nil =>
    simp only [channelSources, events, Option.some_inj, Prod.mk.injEq] at polled
    obtain ⟨rfl, rfl, _⟩ := polled
    exact ⟨kept, .inl ⟨rfl, by rw [events], by simp⟩⟩
  | cons event rest =>
    cases ready with
    | false =>
      simp only [channelSources, Option.some_inj, Prod.mk.injEq] at polled
      obtain ⟨rfl, rfl, _⟩ := polled
      exact ⟨kept, .inl ⟨rfl, by rw [events], by simp⟩⟩
    | true =>
      simp only [channelSources, events, Option.bind_eq_some_iff] at polled
      obtain ⟨⟨yielded, b''⟩, handled, polled⟩ := polled
      obtain ⟨rx, commandTx', handled⟩ := handle_cases handled
      cases yielded with
      | none =>
        simp only [Option.some_inj, Prod.mk.injEq] at polled
        obtain ⟨rfl, rfl, _⟩ := polled
        obtain ⟨unanswered, same, _⟩ | ⟨_, _, _, _, _, _, _, impossible⟩ := handled
        · refine ⟨by rw [commandTx', kept], .inl ⟨same, ?_, by simp⟩⟩
          rw [rx, List.filterMap_cons_none unanswered]
        · cases impossible
      | some yielded =>
        simp only [Option.some_inj, Prod.mk.injEq] at polled
        obtain ⟨rfl, rfl, _⟩ := polled
        refine ⟨by rw [commandTx', kept], ?_⟩
        obtain ⟨unanswered, same, other⟩ | ⟨id, queryId, target, peers, answers, found, erased, result⟩ := handled
        · refine .inl ⟨same, ?_, fun queryId target peers findNode => other queryId target peers ?_⟩
          · rw [rx, List.filterMap_cons_none unanswered]
          · exact (Poll.ready.inj findNode)
        · refine .inr ⟨event, id, queryId, target, peers, ?_, answers, found, erased, ?_⟩
          · rw [rx]
          · rw [result]

/-- A poll takes no result and leaves the translation, or takes the first of the
queue and yields it under the id the translation has. -/
theorem poll_cases {ready room : Bool} {result : Poll (Option (NetworkEvent PeerId Multiaddr))}
    (polled : s.poll into fromBytes ready room = some (result, s')) :
    s.call = .idle ∧ s'.call = s.call ∧ s'.nextQueryId = s.nextQueryId ∧ s'.started = s.started ∧
      s'.running = s.running ∧
      s'.commands.countP InnerCommand.isFindNode = s.commands.countP InnerCommand.isFindNode ∧
      ((s'.queued = s.queued ∧ s'.backend.queryTranslate = s.backend.queryTranslate ∧
          ∀ queryId target peers, result ≠ .ready (some (.findNode queryId target peers))) ∨
        ∃ id queryId target peers, s.queued = id :: s'.queued ∧
          s.events.head?.bind SwarmEvent.answers = some id ∧
          s.backend.queryTranslate.lookup id = some queryId ∧
          s'.backend.queryTranslate = s.backend.queryTranslate.erase id ∧
          result = .ready (some (.findNode queryId target peers))) := by
  unfold poll at polled
  cases idle : s.call with
  | sent => simp [idle] at polled
  | replied _ => simp [idle] at polled
  | idle =>
    simp only [idle, bind, Option.bind_eq_some_iff, Option.some_inj, Prod.mk.injEq] at polled
    obtain ⟨⟨_, backend, ctx⟩, next, rfl, rfl⟩ := polled
    obtain ⟨kept, ⟨same, queued, other⟩ | ⟨event, id, queryId, target, peers, events, answers, found, erased, rfl⟩⟩ :=
      poll_next_cases next
    · exact ⟨rfl, rfl, rfl, rfl, rfl, kept, .inl ⟨queued, same, other⟩⟩
    · refine ⟨rfl, rfl, rfl, rfl, rfl, kept, .inr ⟨id, queryId, target, peers, ?_, ?_, found, erased, rfl⟩⟩
      · rw [Session.queued, Session.events, events, List.filterMap_cons_some answers]
        rfl
      · rw [Session.events, events, List.head?_cons, Option.bind_some, answers]

/-- The result that is received is in the translation: its query is not that of
a call, and no other result of it is queued. -/
theorem consistent_poll (consistent : s.Consistent) {ready room : Bool}
    {result : Poll (Option (NetworkEvent PeerId Multiaddr))}
    (polled : s.poll into fromBytes ready room = some (result, s')) : s'.Consistent := by
  obtain ⟨idle, call, _, started, running, kept, ⟨queued, same, _⟩ | ⟨id, _, _, _, taken, _, _, erased, _⟩⟩ :=
    poll_cases polled
  · refine consistent.kept kept call same ?_ fun id => ?_
    · rw [started, running, queued]
      exact consistent.reported
    · rw [Outstanding, running, queued, Outstanding]
  · have before := consistent.reported
    rw [taken] at before
    have reported : Reported s'.started s'.running s'.queued := by
      rw [started, running]
      exact before.take
    refine ⟨by rw [kept, call, consistent.commands], reported.apart, reported.ended, reported.known,
      fun other => ?_, fun other replied => ?_⟩
    · rw [Outstanding, running, before.mem_taken, ← taken, erased, Finmap.mem_erase, call, idle]
      have listed := consistent.translated other
      rw [idle] at listed
      rw [← Outstanding, listed]
      simp [and_comm]
    · rw [call, idle] at replied
      cases replied

end Polls

/-! ## The ids returned and yielded -/

section History

/-- The id a call returned. -/
def returnedId : Output KadId Peer Addr PeerId Multiaddr → Option QueryId
  | .returned queryId _ => some queryId
  | .yielded _ _ => none

/-- The id of a `findNode` event. -/
def yieldedId : Output KadId Peer Addr PeerId Multiaddr → Option QueryId
  | .yielded (.findNode queryId _ _) _ => some queryId
  | _ => none

/-- The id of a `findNode` event with the query of which it is the result. -/
def yieldedAnswer (output : Output KadId Peer Addr PeerId Multiaddr) : Option (QueryId × KadId) :=
  match output with
  | .yielded (.findNode queryId _ _) received => (received.bind SwarmEvent.answers).map (queryId, ·)
  | _ => none

/-- Each `findNode` event carries the id that an earlier call returned, and is
the result of the query of that call. -/
def AnswersEarlierCalls (outs : List (Output KadId Peer Addr PeerId Multiaddr)) : Prop :=
  ∀ earlier later queryId target peers received,
    outs = earlier ++ .yielded (.findNode queryId target peers) received :: later →
    ∃ query, received.bind SwarmEvent.answers = some query ∧ .returned queryId query ∈ earlier

variable {outs : List (Output KadId Peer Addr PeerId Multiaddr)}

theorem answers_append {output : Output KadId Peer Addr PeerId Multiaddr}
    (answers : AnswersEarlierCalls outs)
    (last : ∀ queryId target peers received, output = .yielded (.findNode queryId target peers) received →
      ∃ query, received.bind SwarmEvent.answers = some query ∧ .returned queryId query ∈ outs) :
    AnswersEarlierCalls (outs ++ [output]) := by
  intro earlier later queryId target peers received split
  obtain rfl | ⟨later, end_, rfl⟩ := List.eq_nil_or_concat later
  · obtain ⟨rfl, same⟩ := List.append_inj' split rfl
    exact last queryId target peers received (List.singleton_inj.mp same)
  · rw [List.concat_eq_append, ← List.cons_append, ← List.append_assoc] at split
    exact answers earlier later queryId target peers received (List.append_inj' split rfl).1

/-- An output that is no id and no result. -/
theorem yields_other {result : Poll (Option (NetworkEvent PeerId Multiaddr))}
    (other : ∀ queryId target peers, result ≠ .ready (some (.findNode queryId target peers)))
    (answers : AnswersEarlierCalls outs) :
    (outs ++ s.yields result).filterMap returnedId = outs.filterMap returnedId ∧
      (outs ++ s.yields result).filterMap yieldedAnswer = outs.filterMap yieldedAnswer ∧
      (∀ output ∈ outs, output ∈ outs ++ s.yields result) ∧ AnswersEarlierCalls (outs ++ s.yields result) := by
  cases result with
  | pending => simpa [yields] using answers
  | ready event =>
    cases event with
    | none => simpa [yields] using answers
    | some event =>
      cases event with
      | findNode queryId target peers => exact absurd rfl (other queryId target peers)
      | peerIdentified =>
        refine ⟨?_, ?_, fun output member => List.mem_append_left _ member, answers_append answers ?_⟩
        · simp [yields, returnedId]
        · simp [yields, yieldedAnswer]
        · rintro _ _ _ _ ⟨⟩

variable [DecidableEq KadId]

/-- What the outputs so far say of a session. The ids returned are consecutive,
and a query that was answered is not outstanding again. -/
structure History (outs : List (Output KadId Peer Addr PeerId Multiaddr)) (s : Session KadId Peer Addr) : Prop where
  counted : outs.filterMap returnedId =
    (List.range (outs.filterMap returnedId).length).map fun i => ⟨i % 2 ^ 64⟩
  next : s.nextQueryId = (outs.filterMap returnedId).length % 2 ^ 64
  entries : ∀ id queryId, s.backend.queryTranslate.lookup id = some queryId → .returned queryId id ∈ outs
  ended : ∀ pair ∈ outs.filterMap yieldedAnswer, pair.2 ∈ s.started ∧ ¬s.Outstanding pair.2
  once : ((outs.filterMap yieldedAnswer).map Prod.snd).Nodup
  answers : AnswersEarlierCalls outs

theorem history_new :
    History ([] : List (Output KadId Peer Addr PeerId Multiaddr)) (new : Session KadId Peer Addr) where
  counted := rfl
  next := rfl
  entries id queryId found := by
    rw [show (new : Session KadId Peer Addr).backend.queryTranslate = ∅ from rfl, Finmap.lookup_empty] at found
    cases found
  ended pair member := nomatch member
  once := List.nodup_nil
  answers earlier later _ _ _ _ split := by simp at split

/-- A step without an output that leaves the translation and the counter, and of
the queries known before those that are outstanding. -/
theorem History.silent (history : History outs s) (translate : s'.backend.queryTranslate = s.backend.queryTranslate)
    (next : s'.nextQueryId = s.nextQueryId) (started : s.started ⊆ s'.started)
    (outstanding : ∀ id ∈ s.started, s'.Outstanding id → s.Outstanding id) : History outs s' where
  counted := history.counted
  next := next.trans history.next
  entries id queryId found := by
    rw [translate] at found
    exact history.entries id queryId found
  ended pair member := by
    obtain ⟨known, closed⟩ := history.ended pair member
    exact ⟨started known, fun again => closed (outstanding pair.2 known again)⟩
  once := history.once
  answers := history.answers

theorem history_resume (history : History outs s) {queryId : QueryId} {query : KadId}
    (resumed : s.resume = some (queryId, query, s')) : History (outs ++ [.returned queryId query]) s' := by
  obtain ⟨-, rfl, rfl⟩ := resume_origin resumed
  have returned : (outs ++ [Output.returned ⟨s.nextQueryId⟩ query]).filterMap returnedId =
      outs.filterMap returnedId ++ [⟨s.nextQueryId⟩] := List.filterMap_append
  have answered : (outs ++ [Output.returned ⟨s.nextQueryId⟩ query]).filterMap yieldedAnswer =
      outs.filterMap yieldedAnswer := by
    rw [List.filterMap_append, List.filterMap_cons_none rfl, List.filterMap_nil, List.append_nil]
  refine ⟨?_, ?_, fun id found entry => ?_, ?_, ?_, answers_append history.answers ?_⟩
  · rw [returned, List.length_append, List.length_singleton, List.range_succ, List.map_append, ← history.counted,
      history.next]
    rfl
  · show (s.nextQueryId + 1) % 2 ^ 64 = _
    rw [returned, List.length_append, List.length_singleton, history.next]
    omega
  · rcases Finmap.inserted_entry entry with ⟨rfl, rfl⟩ | ⟨-, before⟩
    · exact List.mem_append_right _ List.mem_cons_self
    · exact List.mem_append_left _ (history.entries id found before)
  · rw [answered]
    exact history.ended
  · rw [answered]
    exact history.once
  · rintro _ _ _ _ ⟨⟩

theorem history_poll [DecidableEq Peer] {into : Conversion Peer Addr PeerId Multiaddr} {fromBytes : Bytes → Option PeerId}
    (consistent : s.Consistent) (history : History outs s) {ready room : Bool}
    {result : Poll (Option (NetworkEvent PeerId Multiaddr))}
    (polled : s.poll into fromBytes ready room = some (result, s')) : History (outs ++ s.yields result) s' := by
  obtain ⟨idle, _, next, started, running, _, ⟨queued, same, other⟩ |
    ⟨id, queryId, target, peers, taken, received, found, erased, rfl⟩⟩ := poll_cases polled
  · obtain ⟨returned, answered, more, answers⟩ := yields_other (s := s) other history.answers
    refine ⟨by rw [returned]; exact history.counted, by rw [next, returned]; exact history.next,
      fun id queryId found => ?_, ?_, by rw [answered]; exact history.once, answers⟩
    · rw [same] at found
      exact more _ (history.entries id queryId found)
    · rw [answered, started]
      intro pair member
      rw [Outstanding, running, queued]
      exact history.ended pair member
  · have before := consistent.reported
    rw [taken] at before
    have member : id ∈ s.queued := by
      rw [taken]
      exact List.mem_cons_self
    have output : s.yields (.ready (some (.findNode queryId target peers))) =
      [.yielded (.findNode queryId target peers) s.events.head?] := rfl
    have returned : (outs ++ [Output.yielded (.findNode queryId target peers) s.events.head?]).filterMap returnedId =
        outs.filterMap returnedId := by
      rw [List.filterMap_append, List.filterMap_cons_none rfl, List.filterMap_nil, List.append_nil]
    have answered : (outs ++ [Output.yielded (.findNode queryId target peers) s.events.head?]).filterMap yieldedAnswer =
        outs.filterMap yieldedAnswer ++ [(queryId, id)] := by
      rw [List.filterMap_append]
      simp [yieldedAnswer, received]
    have closed : ∀ other, s'.Outstanding other → s.Outstanding other ∧ other ≠ id := by
      intro other there
      rw [Outstanding, running, before.mem_taken, ← taken] at there
      exact there
    rw [output]
    refine ⟨by rw [returned]; exact history.counted, by rw [next, returned]; exact history.next,
      fun other queryId' entry => ?_, ?_, ?_, answers_append history.answers ?_⟩
    · rw [erased] at entry
      exact List.mem_append_left _ (history.entries other queryId' (Finmap.erased_entry entry).2)
    · rw [answered, started]
      intro pair listed
      obtain earlier | last := List.mem_append.mp listed
      · obtain ⟨known, closed'⟩ := history.ended pair earlier
        exact ⟨known, fun again => closed' (closed pair.2 again).1⟩
      · rw [List.mem_singleton.mp last]
        exact ⟨consistent.known id (.inr member), fun again => (closed id again).2 rfl⟩
    · rw [answered, List.map_append, List.map_singleton, ← List.concat_eq_append]
      refine history.once.concat fun earlier => ?_
      obtain ⟨pair, listed, same⟩ := List.mem_map.mp earlier
      exact (history.ended pair listed).2 (same ▸ .inr member)
    · rintro _ _ _ _ ⟨⟩
      exact ⟨id, received, history.entries id queryId found⟩

omit [DecidableEq KadId] in
/-- Where calls return different ids, an id was returned for one query. -/
theorem returned_query (distinct : (outs.filterMap returnedId).Nodup) {queryId : QueryId} {query query' : KadId}
    (returned : .returned queryId query ∈ outs) (returned' : .returned queryId query' ∈ outs) : query = query' := by
  by_contra apart
  have symmetric : Std.Symm fun a b : Output KadId Peer Addr PeerId Multiaddr =>
      ∀ id, returnedId a = some id → ∀ id', returnedId b = some id' → id ≠ id' :=
    ⟨fun a b differ id given id' given' same => differ id' given' id given same.symm⟩
  exact (List.pairwise_filterMap.mp distinct).forall returned returned' (by simpa using apart) queryId rfl queryId rfl rfl

theorem History.returned_nodup (history : History outs s) (below : (outs.filterMap returnedId).length ≤ 2 ^ 64) :
    (outs.filterMap returnedId).Nodup := by
  rw [history.counted]
  refine List.Nodup.map_on (fun i first j second same => ?_) List.nodup_range
  rw [List.mem_range] at first second
  have residues : i % 2 ^ 64 = j % 2 ^ 64 := congrArg QueryId.id same
  rwa [Nat.mod_eq_of_lt (first.trans_le below), Nat.mod_eq_of_lt (second.trans_le below)] at residues

/-- Where calls return different ids, an id stands for one query, which is
answered once. -/
theorem History.yielded_nodup (history : History outs s) (distinct : (outs.filterMap returnedId).Nodup) :
    (outs.filterMap yieldedId).Nodup := by
  have answered : ∀ output ∈ outs, yieldedId output = (yieldedAnswer output).map Prod.fst := by
    intro output member
    obtain ⟨earlier, later, split⟩ := List.append_of_mem member
    match output with
    | .returned _ _ => rfl
    | .yielded (.peerIdentified ..) _ => rfl
    | .yielded (.findNode queryId target peers) received =>
      obtain ⟨query, answers, _⟩ := history.answers earlier later queryId target peers received split
      rw [yieldedAnswer, answers]
      rfl
  have returned : ∀ pair ∈ outs.filterMap yieldedAnswer, .returned pair.1 pair.2 ∈ outs := by
    intro pair member
    obtain ⟨output, listed, given⟩ := List.mem_filterMap.mp member
    obtain ⟨earlier, later, split⟩ := List.append_of_mem listed
    match output with
    | .returned _ _ => cases given
    | .yielded (.peerIdentified ..) _ => cases given
    | .yielded (.findNode queryId target peers) received =>
      obtain ⟨query, answers, returned⟩ := history.answers earlier later queryId target peers received split
      rw [yieldedAnswer, answers] at given
      cases given
      rw [split]
      exact List.mem_append_left _ returned
  have ids : outs.filterMap yieldedId = (outs.filterMap yieldedAnswer).map Prod.fst := by
    rw [List.map_filterMap]
    exact List.filterMap_congr answered
  rw [ids]
  refine List.Nodup.map_on (fun first listed second listed' same => Prod.ext same ?_) history.once.of_map
  exact returned_query distinct (returned first listed) (same ▸ returned second listed')

end History

/-! ## Every interleaving -/

section Interleavings
variable [DecidableEq KadId] [DecidableEq Peer] (into : Conversion Peer Addr PeerId Multiaddr)
  (fromBytes : Bytes → Option PeerId)

/-- The calls, the polls and the background task in any order. -/
def machine : Machine (Session KadId Peer Addr) (Label KadId Peer Addr) where
  start := .new
  next s l := (s.step into fromBytes l).map Prod.snd

/-- What the steps of a run put out. -/
def outputs (labels : List (Label KadId Peer Addr)) : List (Output KadId Peer Addr PeerId Multiaddr) :=
  (machine into fromBytes).trace (fun s l _ => ((s.step into fromBytes l).map Prod.fst).getD []) labels

variable {into fromBytes} {labels : List (Label KadId Peer Addr)}

theorem run_history (run : (machine into fromBytes).replay labels = some s) :
    s.Consistent ∧ History (outputs into fromBytes labels) s := by
  refine Machine.trace_invariant (m := machine into fromBytes)
    (I := fun past s => s.Consistent ∧ History past s) ?_ ⟨consistent_new, history_new⟩ run
  rintro past s l s' ⟨consistent, history⟩ taken
  obtain ⟨⟨emitted, _⟩, step, rfl⟩ := Option.map_eq_some_iff.mp taken
  rw [step, Option.map_some, Option.getD_some]
  cases l with
  | callFindNode peer =>
    obtain ⟨_, called, same⟩ := Option.map_eq_some_iff.mp step
    cases same
    rw [List.append_nil]
    obtain ⟨_, rfl⟩ := call_origin called
    exact ⟨consistent_call consistent called, history.silent rfl rfl subset_rfl fun _ _ there => there⟩
  | resume =>
    obtain ⟨_, resumed, same⟩ := Option.map_eq_some_iff.mp step
    cases same
    exact ⟨consistent_resume consistent resumed, history_resume history resumed⟩
  | addKnownPeer peer address =>
    obtain ⟨_, added, same⟩ := Option.map_eq_some_iff.mp step
    cases same
    rw [List.append_nil]
    obtain rfl := add_origin added
    exact ⟨consistent_add consistent added, history.silent rfl rfl subset_rfl fun _ _ there => there⟩
  | poll ready room =>
    obtain ⟨_, polled, same⟩ := Option.map_eq_some_iff.mp step
    cases same
    exact ⟨consistent_poll consistent polled, history_poll consistent history polled⟩
  | command fresh =>
    obtain ⟨_, received, same⟩ := Option.map_eq_some_iff.mp step
    cases same
    rw [List.append_nil]
    obtain ⟨translate, next, _, started⟩ := command_cases received
    refine ⟨consistent_command consistent received, history.silent translate next ?_ fun id known there =>
      outstanding_command received known there⟩
    obtain ⟨_, _, started, _⟩ | ⟨_, _, _, _, started, _⟩ := started
    · rw [started]
    · rw [started]
      exact Finset.subset_insert _ _
  | event event =>
    obtain ⟨_, happened, same⟩ := Option.map_eq_some_iff.mp step
    cases same
    rw [List.append_nil]
    obtain ⟨_, _, next, started, translate, _⟩ := event_cases happened
    exact ⟨consistent_event consistent happened, history.silent translate next started.superset fun id _ there =>
      (outstanding_event happened id).mp there⟩

/-- The reply to a command always has a call that waits for it. -/
theorem reply_awaited (run : (machine into fromBytes).replay labels = some s) {peer : Peer}
    (sent : .findNode peer ∈ s.commands) : s.call = .sent := by
  have one := (run_history run).1.commands
  have some_sent := List.countP_pos_iff (p := InnerCommand.isFindNode).mpr ⟨_, sent, rfl⟩
  rw [one] at some_sent
  cases call : s.call with
  | sent => rfl
  | idle => rw [call] at some_sent; cases some_sent
  | replied query => rw [call] at some_sent; cases some_sent

/-- Each `findNode` event carries the id of an earlier call, for its query; no id
is yielded twice or returned twice before the counter wraps; and a result that a
poll receives is in the translation. -/
theorem find_node_answered (run : (machine into fromBytes).replay labels = some s) :
    AnswersEarlierCalls (outputs into fromBytes labels) ∧
    (((outputs into fromBytes labels).filterMap returnedId).length ≤ 2 ^ 64 →
      ((outputs into fromBytes labels).filterMap yieldedId).Nodup ∧
      ((outputs into fromBytes labels).filterMap returnedId).Nodup) ∧
    (s.call = .idle → ∀ event rest query, s.events = event :: rest → event.answers = some query →
      query ∈ s.backend.queryTranslate) := by
  obtain ⟨consistent, history⟩ := run_history run
  refine ⟨history.answers, fun below => ?_, fun idle event rest query first answers => ?_⟩
  · have distinct := history.returned_nodup below
    exact ⟨history.yielded_nodup distinct, distinct⟩
  · have waits : query ∈ s.queued := by
      rw [queued, first, List.filterMap_cons_some answers]
      exact List.mem_cons_self
    refine ((consistent.translated query).mp (.inr waits)).resolve_right fun replied => ?_
    rw [idle] at replied
    cases replied

/-- Two results, each queued before the call that started its query returns. The
first is polled. -/
def earlyResults : List (Label Nat Nat Nat) :=
  [.callFindNode 7, .command 0, .event (.closestPeers 0 false [] []), .resume,
    .callFindNode 8, .command 1, .event (.closestPeers 1 true [] []), .resume, .poll true true]

theorem early_results_answered : ∃ s : Session Nat Nat Nat,
    (machine ⟨id, id⟩ (fun _ => some 7)).replay earlyResults = some s ∧
    (outputs ⟨id, id⟩ (fun _ => some 7) earlyResults).filterMap yieldedAnswer = [(⟨0⟩, 0)] ∧
    AnswersEarlierCalls (outputs ⟨id, id⟩ (fun _ => some 7) earlyResults) ∧
    ((outputs ⟨id, id⟩ (fun _ => some 7) earlyResults).filterMap yieldedId).Nodup ∧
    ((outputs ⟨id, id⟩ (fun _ => some 7) earlyResults).filterMap returnedId).Nodup ∧
    1 ∈ s.backend.queryTranslate := by
  have ends : ((machine ⟨id, id⟩ (fun _ => some 7)).replay earlyResults).map (fun s : Session Nat Nat Nat =>
      (s.call, s.events.map SwarmEvent.answers)) = some (.idle, [some 1]) := by
    decide +kernel
  have returned : (outputs ⟨id, id⟩ (fun _ => some 7) earlyResults).filterMap returnedId = [⟨0⟩, ⟨1⟩] := by
    decide +kernel
  obtain ⟨s, run, shown⟩ := Option.map_eq_some_iff.mp ends
  obtain ⟨idle, waiting⟩ := Prod.mk.inj shown
  obtain ⟨event, events, second⟩ := List.map_eq_singleton_iff.mp waiting
  obtain ⟨answers, ids, received⟩ := find_node_answered run
  obtain ⟨yielded, distinct⟩ := ids (by rw [returned]; decide)
  exact ⟨s, run, by decide +kernel, answers, yielded, distinct, received idle event [] 1 events second⟩

end Interleavings

end Session
end Libp2pBackend
end Subp2pExplorer.Backends
