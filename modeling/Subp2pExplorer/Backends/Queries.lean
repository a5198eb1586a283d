import Subp2pExplorer.Backends.Driver
import Subp2pExplorer.Backends.Translation
import Subp2pExplorer.Backends.Wakes

/-! The queries that the driver keeps over the two backends. A query is live
until the backend takes its report from the library. One backend returns every
report as an event, the other returns none for a query that failed, and its id
stays. -/
namespace Subp2pExplorer.Backends
open Lib Notifications

/-! ## The driver over libp2p -/

namespace Libp2pBackend

/-- What the background task does. -/
inductive Act (KadId Peer Addr : Type) where
  | command (fresh : KadId)
  | event (event : SwarmEvent KadId Peer Addr)

namespace Session
variable {KadId Peer Addr PeerId Multiaddr : Type} [DecidableEq KadId]

/-- The query of an id has not been reported to the backend. -/
def Live (s : Session KadId Peer Addr) (queryId : QueryId) : Prop :=
  ∃ query, s.backend.queryTranslate.lookup query = some queryId ∧ s.Outstanding query

def task (act : Act KadId Peer Addr) (s : Session KadId Peer Addr) : Option (Session KadId Peer Addr) :=
  match act with
  | .command fresh => s.handleCmd fresh
  | .event event => s.handleSwarmEvent event

variable {s s' : Session KadId Peer Addr}

theorem live_kept (translate : s'.backend.queryTranslate = s.backend.queryTranslate)
    (outstanding : ∀ query, s.Outstanding query → s'.Outstanding query) (queryId : QueryId) (live : s.Live queryId) :
    s'.Live queryId := by
  obtain ⟨query, entry, waits⟩ := live
  exact ⟨query, by rw [translate, entry], outstanding query waits⟩

theorem task_keeps {act : Act KadId Peer Addr} (consistent : s.Consistent) (acted : s.task act = some s') :
    s'.Consistent ∧ ∀ queryId, s.Live queryId → s'.Live queryId := by
  cases act with
  | command fresh =>
    refine ⟨consistent_command consistent acted, ?_⟩
    obtain ⟨translate, _, queued, ⟨_, _, _, running⟩ | ⟨_, _, _, _, _, running⟩⟩ := command_cases acted
    · refine live_kept translate fun query waits => ?_
      rwa [Outstanding, running, queued]
    · refine live_kept translate fun query waits => ?_
      rw [Outstanding, running, queued]
      exact waits.imp_left Finset.mem_insert_of_mem
  | event event =>
    obtain ⟨_, _, _, _, translate, _⟩ := event_cases acted
    exact ⟨consistent_event consistent acted,
      live_kept translate fun query waits => (outstanding_event acted query).mpr waits⟩

theorem resume_live {queryId : QueryId} {query : KadId} (consistent : s.Consistent)
    (resumed : s.resume = some (queryId, query, s')) :
    s'.Live queryId ∧ ∀ other, s.Live other → s'.Live other := by
  obtain ⟨replied, rfl, rfl⟩ := resume_origin resumed
  refine ⟨⟨query, Finmap.lookup_insert _, (consistent.translated query).mpr (.inr replied)⟩, ?_⟩
  rintro other ⟨query', entry, waits⟩
  have apart : query' ≠ query := by
    rintro rfl
    exact consistent.entered query' replied (Finmap.mem_of_lookup_eq_some entry)
  exact ⟨query', (Finmap.lookup_insert_of_ne _ apart).trans entry, waits⟩

/-- `add_known_peer` of a peer with all its addresses. -/
def addKnownPeers (peer : Peer) (addresses : List Addr) (s : Session KadId Peer Addr) :
    Option (Session KadId Peer Addr) :=
  addresses.foldlM (fun s address => s.addKnownPeer peer address) s

theorem add_keeps {peer : Peer} {addresses : List Addr} (consistent : s.Consistent)
    (added : s.addKnownPeers peer addresses = some s') :
    s'.Consistent ∧ ∀ queryId, s.Live queryId → s'.Live queryId := by
  induction addresses generalizing s with
  | nil =>
    cases added
    exact ⟨consistent, fun _ live => live⟩
  | cons address rest ih =>
    rw [addKnownPeers, List.foldlM_cons] at added
    obtain ⟨next, first, rest⟩ := Option.bind_eq_some_iff.mp added
    obtain ⟨consistent', live'⟩ := ih (consistent_add consistent first) rest
    obtain rfl := add_origin first
    exact ⟨consistent', fun queryId live => live' queryId (live_kept rfl (fun _ waits => waits) queryId live)⟩

variable [DecidableEq Peer] {into : Conversion Peer Addr PeerId Multiaddr} {fromBytes : Bytes → Option PeerId}

/-- Of the live queries a poll ends only the one that it yields. -/
theorem poll_live {ready room : Bool} {result : Poll (Option (NetworkEvent PeerId Multiaddr))}
    (polled : s.poll into fromBytes ready room = some (result, s')) (queryId : QueryId) (live : s.Live queryId) :
    s'.Live queryId ∨ ∃ target peers, result = .ready (some (.findNode queryId target peers)) := by
  obtain ⟨query, entry, waits⟩ := live
  obtain ⟨_, _, _, _, running, _, ⟨queued, same, _⟩ |
    ⟨ended, yielded, target, peers, taken, _, found, erased, rfl⟩⟩ := poll_cases polled
  · refine .inl ⟨query, by rw [same, entry], ?_⟩
    rwa [Outstanding, running, queued]
  · by_cases same : query = ended
    · subst same
      rw [found, Option.some_inj] at entry
      exact .inr ⟨target, peers, by rw [entry]⟩
    · refine .inl ⟨query, by rw [erased, Finmap.lookup_erase_ne same, entry], ?_⟩
      rw [Outstanding, taken] at waits
      rw [Outstanding, running]
      exact waits.imp_right fun member => (List.mem_cons.mp member).resolve_left same

/-- The backend as the driver uses it. -/
def network (into : Conversion Peer Addr PeerId Multiaddr) (outOf : Conversion PeerId Multiaddr Peer Addr)
    (fromBytes : Bytes → Option PeerId) :
    NetworkBackend (Session KadId Peer Addr) (Act KadId Peer Addr) (Bool × Bool) PeerId Multiaddr where
  background act s := s.task act
  callFindNode peer s := s.callFindNode (outOf.peer peer)
  resumeFindNode s := s.resume.map fun (queryId, _, s) => (queryId, s)
  addKnownPeer peer addresses s := s.addKnownPeers (outOf.peer peer) (addresses.map outOf.address)
  pollNext turn s := s.poll into fromBytes turn.1 turn.2

theorem network_tracks (outOf : Conversion PeerId Multiaddr Peer Addr) :
    Discovery.Tracks (network into outOf fromBytes) (fun s : Session KadId Peer Addr => s.Consistent) Live
      (fun _ _ => False) fun _ _ => True where
  background consistent acted := (task_keeps consistent acted).imp_right fun live => ⟨live, fun _ held => held⟩
  callFindNode consistent called := by
    refine ⟨consistent_call consistent called, ?_, fun _ held => held⟩
    obtain ⟨_, rfl⟩ := call_origin called
    exact live_kept rfl fun _ waits => waits
  resumeFindNode consistent resumed := by
    obtain ⟨⟨_, query, _⟩, resumed, same⟩ := Option.map_eq_some_iff.mp resumed
    cases same
    obtain ⟨fresh, live⟩ := resume_live consistent resumed
    exact ⟨consistent_resume consistent resumed, fresh, live, fun _ held => held.elim⟩
  addKnownPeer consistent added := (add_keeps consistent added).imp_right fun live => ⟨live, fun _ held => held⟩
  pollNext consistent polled := ⟨consistent_poll consistent polled, fun _ => poll_live polled, fun _ held => held.elim⟩

end Session
end Libp2pBackend

/-! ## The driver over litep2p -/

section Polls
variable {ς Peer Addr PeerId Multiaddr : Type} {sources : Litep2pSources ς Peer Addr PeerId Multiaddr}
  {into : Conversion Peer Addr PeerId Multiaddr} {b b' : Litep2pBackend ς PeerId Multiaddr}
  {result : Poll (Option (NetworkEvent PeerId Multiaddr))} {ctx : Context}

/-- An identified peer is returned before Kademlia is polled, and of the events
of Kademlia only the end of a query. -/
theorem litep2p_poll_cases (polled : b.pollNext sources into = some (result, b', ctx)) :
    (Takes (sources.identify b.identifyStream).1 ∧ b'.kadHandle = b.kadHandle ∧
      ∀ queryId target peers, result ≠ .ready (some (.findNode queryId target peers))) ∨
    (¬Takes (sources.identify b.identifyStream).1 ∧ b'.kadHandle = (sources.kad b.kadHandle).2 ∧
      match (sources.kad b.kadHandle).1 with
      | .ready (some (.findNodeSuccess queryId target peers)) => result =
        .ready (some (.findNode ⟨queryId⟩ (into.peer target) (peers.map fun peer => (into.peer peer.1, peer.2.map into.address))))
      | _ => result = .pending) := by
  unfold Litep2pBackend.pollNext at polled
  obtain ⟨⟨acted, rest, tx⟩, actions, polled⟩ := Option.bind_eq_some_iff.mp polled
  dsimp only at polled
  split at polled
  · rename_i event identified
    cases polled
    exact .inl ⟨⟨event, identified⟩, rfl, fun _ _ _ findNode => nomatch findNode⟩
  · rename_i other
    have unidentified : ¬Takes (sources.identify b.identifyStream).1 := fun ⟨event, same⟩ => other event same
    refine .inr ⟨unidentified, ?_⟩
    split at polled <;> cases polled <;> simp_all

end Polls

/-- The query a Kademlia event reports, as finished or as failed. -/
def KademliaEvent.reports {Peer Addr : Type} : KademliaEvent Peer Addr → Option Nat
  | .findNodeSuccess queryId _ _ => some queryId
  | .queryFailed queryId => some queryId
  | _ => none

namespace Litep2pBackend
open Libp2pBackend (FindNodeCall)

/-- What waits in the streams and in the command channel. -/
structure Channels (Peer Addr PeerId Multiaddr : Type) where
  pings : List (PingEvent Peer)
  identified : List (IdentifyEvent Peer Addr)
  found : List (KademliaEvent Peer Addr)
  commands : List (InnerCommand PeerId Multiaddr)

/-- Which sources answer a poll with what they have. -/
structure Readiness where
  ping : Bool
  identify : Bool
  kad : Bool
  room : Bool

def pollFirst {α : Type} : Bool → List α → Poll (Option α) × List α
  | true, item :: rest => (.ready (some item), rest)
  | _, items => (.pending, items)

variable {Peer Addr PeerId Multiaddr : Type}

def channelSources (ready : Readiness) :
    Litep2pSources (Channels Peer Addr PeerId Multiaddr) Peer Addr PeerId Multiaddr where
  ping channel :=
    let (polled, pings) := pollFirst ready.ping channel.pings
    (polled, { channel with pings := pings })
  identify channel :=
    let (polled, identified) := pollFirst ready.identify channel.identified
    (polled, { channel with identified := identified })
  kad channel :=
    let (polled, found) := pollFirst ready.kad channel.found
    (polled, { channel with found := found })
  send action channel :=
    if ready.room then some (.ready (), { channel with commands := channel.commands ++ [action] })
    else some (.pending, channel)

/-- A backend with what the library keeps of its queries. -/
structure Session (Peer Addr PeerId Multiaddr : Type) where
  backend : Litep2pBackend (Channels Peer Addr PeerId Multiaddr) PeerId Multiaddr
  call : FindNodeCall Nat
  started : Finset Nat
  running : Finset Nat

/-- What the library does: it starts the query of a call under an id it did not
give before, emits events, and receives commands. A report is that of a running
query, which ends. -/
inductive Act (Peer Addr : Type) where
  | start (fresh : Nat)
  | ping (event : PingEvent Peer)
  | identify (event : IdentifyEvent Peer Addr)
  | kad (event : KademliaEvent Peer Addr)
  | receive

namespace Session

def new : Session Peer Addr PeerId Multiaddr :=
  ⟨⟨⟨[], [], [], []⟩, ⟨[], [], [], []⟩, ⟨[], [], [], []⟩, ⟨[], [], [], []⟩, []⟩, .idle, ∅, ∅⟩

section Steps
variable (s : Session Peer Addr PeerId Multiaddr)

def found : List (KademliaEvent Peer Addr) := s.backend.kadHandle.found

/-- The queries whose report waits to be taken. -/
def queued : List Nat := s.found.filterMap KademliaEvent.reports

/-- A query of which the backend has not taken the report. -/
def Outstanding (id : Nat) : Prop := id ∈ s.running ∨ id ∈ s.queued

def Live (queryId : QueryId) : Prop := s.Outstanding queryId.id

/-- A live query whose id was returned. -/
def Held (queryId : QueryId) : Prop := s.Outstanding queryId.id ∧ s.call ≠ .replied queryId.id

def emit (event : KademliaEvent Peer Addr) : Session Peer Addr PeerId Multiaddr :=
  { s with backend := { s.backend with kadHandle := { s.backend.kadHandle with found := s.found ++ [event] } } }

def task : Act Peer Addr → Option (Session Peer Addr PeerId Multiaddr)
  | .start fresh =>
    match s.call with
    | .sent =>
      if fresh ∈ s.started then none
      else some { s with
        call := .replied fresh
        started := insert fresh s.started
        running := insert fresh s.running }
    | _ => none
  | .ping event => some { s with
    backend := { s.backend with
      pingStream := { s.backend.pingStream with pings := s.backend.pingStream.pings ++ [event] } } }
  | .identify event => some { s with
    backend := { s.backend with
      identifyStream := { s.backend.identifyStream with
        identified := s.backend.identifyStream.identified ++ [event] } } }
  | .kad event =>
    match event.reports with
    | none => some (s.emit event)
    | some id => if id ∈ s.running then some { s.emit event with running := s.running.erase id } else none
  | .receive =>
    match s.backend.tx.commands with
    | [] => none
    | _ :: rest => some { s with backend := { s.backend with tx := { s.backend.tx with commands := rest } } }

/-- `find_node` waits for the library, which gives the id. -/
def callFindNode : Option (Session Peer Addr PeerId Multiaddr) :=
  match s.call with
  | .idle => some { s with call := .sent }
  | _ => none

def resume : Option (QueryId × Session Peer Addr PeerId Multiaddr) :=
  match s.call with
  | .replied id => some (⟨id⟩, { s with call := .idle })
  | _ => none

/-- `add_known_peer`; what the Kademlia handle is told does not concern queries. -/
def addKnownPeer (peer : PeerId) (addresses : List Multiaddr) : Option (Session Peer Addr PeerId Multiaddr) :=
  match s.call with
  | .idle => some { s with
    backend := { s.backend with
      tx := { s.backend.tx with commands := s.backend.tx.commands ++ [.addKnownAddress peer addresses] } } }
  | _ => none

def poll (into : Conversion Peer Addr PeerId Multiaddr) (ready : Readiness) :
    Option (Poll (Option (NetworkEvent PeerId Multiaddr)) × Session Peer Addr PeerId Multiaddr) :=
  match s.call with
  | .idle => do
    let (result, backend, _) ← s.backend.pollNext (channelSources ready) into
    some (result, { s with backend := backend })
  | _ => none

/-- A poll takes the report of a failed query. -/
def TakesFailure (ready : Readiness) : Prop :=
  ¬Takes (pollFirst ready.identify s.backend.identifyStream.identified).1 ∧
    ∃ id, (pollFirst ready.kad s.found).1 = .ready (some (.queryFailed id))

end Steps

/-- The backend as the driver uses it. -/
def network (into : Conversion Peer Addr PeerId Multiaddr) :
    NetworkBackend (Session Peer Addr PeerId Multiaddr) (Act Peer Addr) Readiness PeerId Multiaddr where
  background act s := s.task act
  callFindNode _ s := s.callFindNode
  resumeFindNode s := s.resume
  addKnownPeer peer addresses s := s.addKnownPeer peer addresses
  pollNext ready s := s.poll into ready

/-! ### The reports against the queries -/

/-- A query is running or its report is queued, once; that of a call is. -/
structure Consistent (s : Session Peer Addr PeerId Multiaddr) : Prop where
  apart : s.queued.Nodup
  ended : ∀ id ∈ s.queued, id ∉ s.running
  known : ∀ id, s.Outstanding id → id ∈ s.started
  called : ∀ id, s.call = .replied id → s.Outstanding id

variable {s s' : Session Peer Addr PeerId Multiaddr}

theorem consistent_new : (new : Session Peer Addr PeerId Multiaddr).Consistent where
  apart := List.nodup_nil
  ended id queued := nomatch queued
  known id outstanding := by simp [Outstanding, new, queued, found] at outstanding
  called id replied := nomatch replied

theorem Consistent.reported (consistent : s.Consistent) : Reported s.started s.running s.queued :=
  ⟨consistent.apart, consistent.ended, consistent.known⟩

/-- What the background does to the queries: it starts that of a call, moves one
from the running to the queued, or does nothing to them. -/
theorem task_cases {act : Act Peer Addr} (acted : s.task act = some s') :
    (s'.call = s.call ∧ s'.started = s.started ∧ s'.running = s.running ∧ s'.queued = s.queued) ∨
    (∃ id ∈ s.running, s'.call = s.call ∧ s'.started = s.started ∧ s'.running = s.running.erase id ∧
      s'.queued = s.queued ++ [id]) ∨
    ∃ fresh, s.call = .sent ∧ fresh ∉ s.started ∧ s'.call = .replied fresh ∧ s'.started = insert fresh s.started ∧
      s'.running = insert fresh s.running ∧ s'.queued = s.queued := by
  cases act with
  | start fresh =>
    simp only [task] at acted
    split at acted
    · rename_i sent
      obtain ⟨unseen, acted⟩ := Option.ite_none_left_eq_some.mp acted
      cases acted
      exact .inr (.inr ⟨fresh, sent, unseen, rfl, rfl, rfl, rfl⟩)
    · cases acted
  | ping event =>
    cases acted
    exact .inl ⟨rfl, rfl, rfl, rfl⟩
  | identify event =>
    cases acted
    exact .inl ⟨rfl, rfl, rfl, rfl⟩
  | kad event =>
    simp only [task] at acted
    have queued : (s.emit event).queued = s.queued ++ [event].filterMap KademliaEvent.reports := List.filterMap_append
    split at acted
    · rename_i unreported
      cases acted
      rw [List.filterMap_cons_none unreported, List.filterMap_nil, List.append_nil] at queued
      exact .inl ⟨rfl, rfl, rfl, queued⟩
    · rename_i id reported
      obtain ⟨runs, acted⟩ := Option.ite_none_right_eq_some.mp acted
      cases acted
      rw [List.filterMap_cons_some reported, List.filterMap_nil] at queued
      exact .inr (.inl ⟨id, runs, rfl, rfl, rfl, queued⟩)
  | receive =>
    simp only [task] at acted
    split at acted
    · cases acted
    · cases acted
      exact .inl ⟨rfl, rfl, rfl, rfl⟩

/-- A step that leaves the call and the outstanding queries. -/
theorem Consistent.kept (consistent : s.Consistent) (call : s'.call = s.call)
    (reported : Reported s'.started s'.running s'.queued)
    (outstanding : ∀ id, s'.Outstanding id ↔ s.Outstanding id) :
    s'.Consistent ∧ (∀ queryId, s.Live queryId → s'.Live queryId) ∧ ∀ queryId, s'.Held queryId → s.Held queryId := by
  refine ⟨⟨reported.apart, reported.ended, reported.known, fun id replied => ?_⟩,
    fun queryId => (outstanding queryId.id).mpr, fun queryId held => ?_⟩
  · exact (outstanding id).mpr (consistent.called id (call.symm.trans replied))
  · rw [Held, outstanding, call] at held
    exact held

theorem task_keeps {act : Act Peer Addr} (consistent : s.Consistent) (acted : s.task act = some s') :
    s'.Consistent ∧ (∀ queryId, s.Live queryId → s'.Live queryId) ∧ ∀ queryId, s'.Held queryId → s.Held queryId := by
  obtain ⟨call, started, running, queued⟩ | ⟨ended, runs, call, started, running, queued⟩ |
    ⟨fresh, sent, unseen, call, started, running, queued⟩ := task_cases acted
  · refine consistent.kept call ?_ fun id => ?_
    · rw [started, running, queued]
      exact consistent.reported
    · rw [Outstanding, running, queued, Outstanding]
  · refine consistent.kept call ?_ fun id => ?_
    · rw [started, running, queued]
      exact consistent.reported.report runs
    · rw [Outstanding, running, queued]
      exact mem_reported runs id
  · have reported : Reported s'.started s'.running s'.queued := by
      rw [started, running, queued]
      exact consistent.reported.start unseen
    have outstanding : ∀ id, s'.Outstanding id ↔ id = fresh ∨ s.Outstanding id := by
      intro id
      rw [Outstanding, running, queued, mem_started, Outstanding]
    refine ⟨⟨reported.apart, reported.ended, reported.known, fun id replied => ?_⟩,
      fun queryId live => (outstanding queryId.id).mpr (.inr live), fun queryId held => ?_⟩
    · rw [call] at replied
      cases replied
      exact (outstanding fresh).mpr (.inl rfl)
    · obtain ⟨there, returned⟩ := held
      refine ⟨((outstanding queryId.id).mp there).resolve_left fun same => returned ?_, fun replied => ?_⟩
      · rw [call, same]
      · rw [sent] at replied
        cases replied

theorem call_keeps (consistent : s.Consistent) (called : s.callFindNode = some s') :
    s'.Consistent ∧ (∀ queryId, s.Live queryId → s'.Live queryId) ∧ ∀ queryId, s'.Held queryId → s.Held queryId := by
  unfold callFindNode at called
  split at called
  · rename_i idle
    cases called
    refine ⟨⟨consistent.apart, consistent.ended, consistent.known, fun id replied => nomatch replied⟩,
      fun _ live => live, fun queryId held => ⟨held.1, fun replied => ?_⟩⟩
    rw [idle] at replied
    cases replied
  · cases called

theorem resume_keeps (consistent : s.Consistent) {queryId : QueryId} (resumed : s.resume = some (queryId, s')) :
    s'.Consistent ∧ s'.Live queryId ∧ (∀ other, s.Live other → s'.Live other) ∧
      ∀ other, s'.Held other → other = queryId ∨ s.Held other := by
  unfold resume at resumed
  split at resumed
  · rename_i id replied
    cases resumed
    refine ⟨⟨consistent.apart, consistent.ended, consistent.known, fun id replied => nomatch replied⟩,
      consistent.called id replied, fun _ live => live, fun other held => ?_⟩
    by_cases same : other.id = id
    · exact .inl (congrArg QueryId.mk same)
    · refine .inr ⟨held.1, fun replied' => same ?_⟩
      rw [replied] at replied'
      exact (FindNodeCall.replied.inj replied').symm
  · cases resumed

theorem add_keeps (consistent : s.Consistent) {peer : PeerId} {addresses : List Multiaddr}
    (added : s.addKnownPeer peer addresses = some s') :
    s'.Consistent ∧ (∀ queryId, s.Live queryId → s'.Live queryId) ∧ ∀ queryId, s'.Held queryId → s.Held queryId := by
  unfold addKnownPeer at added
  split at added
  · cases added
    exact consistent.kept rfl consistent.reported fun _ => Iff.rfl
  · cases added

variable {into : Conversion Peer Addr PeerId Multiaddr} {ready : Readiness}
  {result : Poll (Option (NetworkEvent PeerId Multiaddr))}

/-- A poll takes no report, or the first: that of a finished query is returned,
that of a failed one is not. -/
theorem poll_cases (polled : s.poll into ready = some (result, s')) :
    s.call = .idle ∧ s'.call = s.call ∧ s'.started = s.started ∧ s'.running = s.running ∧
      ((s'.queued = s.queued ∧ ¬s.TakesFailure ready ∧
          ∀ queryId target peers, result ≠ .ready (some (.findNode queryId target peers))) ∨
        ∃ id, s.queued = id :: s'.queued ∧
          ((¬s.TakesFailure ready ∧ ∃ target peers, result = .ready (some (.findNode ⟨id⟩ target peers))) ∨
            (s.TakesFailure ready ∧ result = .pending))) := by
  unfold poll at polled
  split at polled
  · rename_i idle
    simp only [bind, Option.bind_eq_some_iff, Option.some_inj, Prod.mk.injEq] at polled
    obtain ⟨⟨result, backend, ctx⟩, next, rfl, rfl⟩ := polled
    refine ⟨idle, rfl, rfl, rfl, ?_⟩
    obtain ⟨identified, handle, other⟩ | ⟨unidentified, handle, polled⟩ := litep2p_poll_cases next
    · refine .inl ⟨?_, fun failed => failed.1 identified, other⟩
      exact congrArg (fun handle : Channels Peer Addr PeerId Multiaddr => handle.found.filterMap KademliaEvent.reports) handle
    · have left : Session.queued { s with backend := backend } =
          (pollFirst ready.kad s.found).2.filterMap KademliaEvent.reports :=
        congrArg (fun handle : Channels Peer Addr PeerId Multiaddr => handle.found.filterMap KademliaEvent.reports) handle
      have first : ((channelSources ready).kad s.backend.kadHandle).1 = (pollFirst ready.kad s.found).1 := rfl
      rw [first] at polled
      have failure : s.TakesFailure ready ↔ ∃ id, (pollFirst ready.kad s.found).1 = .ready (some (.queryFailed id)) :=
        and_iff_right unidentified
      rw [left, failure, queued]
      generalize ready.kad = kad at polled ⊢
      generalize s.found = found at polled ⊢
      cases kad with
      | false =>
        obtain rfl : result = .pending := polled
        exact .inl ⟨rfl, fun ⟨_, taken⟩ => (nomatch taken), fun _ _ _ findNode => nomatch findNode⟩
      | true =>
        cases found with
        | nil =>
          obtain rfl : result = .pending := polled
          exact .inl ⟨rfl, fun ⟨_, taken⟩ => (nomatch taken), fun _ _ _ findNode => nomatch findNode⟩
        | cons event rest =>
          cases event with
          | findNodeSuccess id target peers => exact .inr ⟨id, rfl, .inl ⟨fun ⟨_, taken⟩ => (nomatch taken), _, _, polled⟩⟩
          | queryFailed id => exact .inr ⟨id, rfl, .inr ⟨⟨id, rfl⟩, polled⟩⟩
          | routingTableUpdate =>
            obtain rfl : result = .pending := polled
            exact .inl ⟨rfl, fun ⟨_, taken⟩ => (nomatch taken), fun _ _ _ findNode => nomatch findNode⟩
          | other =>
            obtain rfl : result = .pending := polled
            exact .inl ⟨rfl, fun ⟨_, taken⟩ => (nomatch taken), fun _ _ _ findNode => nomatch findNode⟩
  · cases polled

/-- Where a poll takes the first report, its query is no more outstanding. -/
theorem outstanding_taken (consistent : s.Consistent) {id : Nat} (running : s'.running = s.running)
    (taken : s.queued = id :: s'.queued) (other : Nat) : s'.Outstanding other ↔ s.Outstanding other ∧ other ≠ id := by
  have reported := consistent.reported
  rw [taken] at reported
  rw [Outstanding, running, reported.mem_taken, ← taken, ← Outstanding]

theorem poll_consistent (consistent : s.Consistent) (polled : s.poll into ready = some (result, s')) : s'.Consistent := by
  obtain ⟨idle, call, started, running, ⟨queued, _⟩ | ⟨id, taken, _⟩⟩ := poll_cases polled
  · refine (consistent.kept call ?_ fun id => ?_).1
    · rw [started, running, queued]
      exact consistent.reported
    · rw [Outstanding, running, queued, Outstanding]
  · have before := consistent.reported
    rw [taken] at before
    have reported : Reported s'.started s'.running s'.queued := by
      rw [started, running]
      exact before.take
    refine ⟨reported.apart, reported.ended, reported.known, fun other replied => ?_⟩
    rw [call, idle] at replied
    cases replied

/-- A live query stays live unless the poll yields its end or takes a failure. -/
theorem poll_live (consistent : s.Consistent) (polled : s.poll into ready = some (result, s'))
    (admitted : ¬s.TakesFailure ready) (queryId : QueryId) (live : s.Live queryId) :
    s'.Live queryId ∨ ∃ target peers, result = .ready (some (.findNode queryId target peers)) := by
  obtain ⟨_, _, _, running, ⟨queued, _⟩ | ⟨id, taken, ⟨_, target, peers, yields⟩ | ⟨failed, _⟩⟩⟩ := poll_cases polled
  · refine .inl ?_
    rwa [Live, Outstanding, running, queued]
  · by_cases same : queryId.id = id
    · subst same
      exact .inr ⟨target, peers, yields⟩
    · exact .inl ((outstanding_taken consistent running taken queryId.id).mpr ⟨live, same⟩)
  · exact absurd failed admitted

theorem poll_held (consistent : s.Consistent) (polled : s.poll into ready = some (result, s')) (queryId : QueryId)
    (held : s'.Held queryId) :
    s.Held queryId ∧ ∀ target peers, result ≠ .ready (some (.findNode queryId target peers)) := by
  obtain ⟨there, returned⟩ := held
  obtain ⟨_, call, _, running, ⟨queued, _, other⟩ | ⟨id, taken, ends⟩⟩ := poll_cases polled
  · rw [Outstanding, running, queued] at there
    rw [call] at returned
    exact ⟨⟨there, returned⟩, other queryId⟩
  · obtain ⟨there, differs⟩ := (outstanding_taken consistent running taken queryId.id).mp there
    rw [call] at returned
    refine ⟨⟨there, returned⟩, fun target peers same => ?_⟩
    obtain ⟨_, _, _, yields⟩ | ⟨_, pending⟩ := ends
    · rw [yields] at same
      cases same
      exact differs rfl
    · rw [pending] at same
      cases same

/-- A poll that takes a failure loses a query whose id was returned. -/
theorem poll_loses (consistent : s.Consistent) (polled : s.poll into ready = some (result, s'))
    (failed : s.TakesFailure ready) : result = .pending ∧ ∃ queryId, s.Held queryId ∧ ¬s'.Live queryId := by
  obtain ⟨idle, _, _, running, ⟨_, unfailed, _⟩ | ⟨id, taken, ⟨unfailed, _⟩ | ⟨_, pending⟩⟩⟩ := poll_cases polled
  · exact absurd failed unfailed
  · exact absurd failed unfailed
  · have waits : id ∈ s.queued := by
      rw [taken]
      exact List.mem_cons_self
    refine ⟨pending, ⟨id⟩, ⟨.inr waits, fun replied => ?_⟩, fun live => ?_⟩
    · rw [idle] at replied
      cases replied
    · exact ((outstanding_taken consistent running taken id).mp live).2 rfl

theorem network_tracks :
    Discovery.Tracks (network into) (fun s : Session Peer Addr PeerId Multiaddr => s.Consistent) Live Held
      fun ready s => ¬s.TakesFailure ready where
  background := task_keeps
  callFindNode := call_keeps
  resumeFindNode consistent resumed := resume_keeps consistent resumed
  addKnownPeer consistent added := add_keeps consistent added
  pollNext consistent polled :=
    ⟨poll_consistent consistent polled, poll_live consistent polled, poll_held consistent polled⟩

end Session
end Litep2pBackend

/-! ## Both backends -/

section Both
variable {PeerId Multiaddr Peer Addr Peer' Addr' : Type} (KadId : Type) [DecidableEq PeerId]
  [DecidableEq Multiaddr] [DecidableEq KadId] [DecidableEq Peer]

/-- Over libp2p the kept ids are always live, and over litep2p they are all
along a run exactly if no poll takes the report of a failed query. -/
theorem kept_queries_live_iff (into : Conversion Peer Addr PeerId Multiaddr)
    (outOf : Conversion PeerId Multiaddr Peer Addr) (fromBytes : Bytes → Option PeerId)
    (into' : Conversion Peer' Addr' PeerId Multiaddr) (numPeers : Nat) (bootnodes : List (PeerId × Multiaddr))
    (peerIds : List PeerId) :
    (∀ labels (d : Discovery (Libp2pBackend.Session KadId Peer Addr) PeerId Multiaddr),
      (Discovery.discovery (Libp2pBackend.Session.network into outOf fromBytes) numPeers .new bootnodes
        peerIds).replay labels = some d →
      d.QueriesLive Libp2pBackend.Session.Live ∧ d.Restored) ∧
    ∀ labels (d : Discovery (Litep2pBackend.Session Peer' Addr' PeerId Multiaddr) PeerId Multiaddr),
      (Discovery.discovery (Litep2pBackend.Session.network into') numPeers .new bootnodes
        peerIds).replay labels = some d →
      ((∀ earlier later d, labels = earlier ++ later →
          (Discovery.discovery (Litep2pBackend.Session.network into') numPeers .new bootnodes
            peerIds).replay earlier = some d →
          d.QueriesLive Litep2pBackend.Session.Live ∧ d.Restored) ↔
        (Discovery.discovery (Litep2pBackend.Session.network into') numPeers .new bootnodes peerIds).Meets
          (fun d l => ∀ ready, l = .poll ready → ¬d.backend.TakesFailure ready) labels) := by
  refine ⟨fun labels d run => ?_, fun labels d run => ?_⟩
  · exact Discovery.queries_live (Libp2pBackend.Session.network_tracks outOf) Libp2pBackend.Session.consistent_new run
  · refine Discovery.queries_live_iff Litep2pBackend.Session.network_tracks Litep2pBackend.Session.consistent_new ?_ ?_ run
    · rintro queryId ⟨outstanding, _⟩
      simp [Litep2pBackend.Session.Outstanding, Litep2pBackend.Session.new, Litep2pBackend.Session.queued,
        Litep2pBackend.Session.found] at outstanding
    · intro ready s s' result consistent polled failed
      exact Litep2pBackend.Session.poll_loses consistent polled (not_not.mp failed)

end Both

/-- Queries started one after another, each under the id the library gives. -/
def startQueries {Act Turn : Type} (start : Nat → Act) (ids : List Nat) : List (Step Act Turn Nat) :=
  ids.flatMap fun id => [.callFindNode 0, .background (start id), .resumeFindNode]

/-- Ten queries, the reports that are polled, and the refill after the last. -/
def refillRun {Act Turn : Type} (start : Nat → Act) (turn : Turn) (reports : List Act) : List (Step Act Turn Nat) :=
  .addBootnode :: startQueries start (List.range 10) ++
    reports.flatMap (fun report => [.background report, .poll turn]) ++ startQueries start (List.range' 10 41)

/-- The driver over each backend, where all types are numbers. -/
def libp2pDriver : Machine (Discovery (Libp2pBackend.Session Nat Nat Nat) Nat Nat)
    (Step (Libp2pBackend.Act Nat Nat Nat) (Bool × Bool) Nat) :=
  Discovery.discovery (Libp2pBackend.Session.network ⟨id, id⟩ ⟨id, id⟩ fun _ => some 0) 100 .new [] (List.range 10)

def litep2pDriver : Machine (Discovery (Litep2pBackend.Session Nat Nat Nat Nat) Nat Nat)
    (Step (Litep2pBackend.Act Nat Nat) Litep2pBackend.Readiness Nat) :=
  Discovery.discovery (Litep2pBackend.Session.network ⟨id, id⟩) 100 .new [] (List.range 10)

def libp2pRun : List (Step (Libp2pBackend.Act Nat Nat Nat) (Bool × Bool) Nat) :=
  refillRun .command (true, true) [.event (.closestPeers 0 true [] [])]

def litep2pRun : List (Step (Litep2pBackend.Act Nat Nat) Litep2pBackend.Readiness Nat) :=
  refillRun .start ⟨true, true, true, true⟩ [.kad (.findNodeSuccess 0 7 [])]

/-- A label that takes no report of a failed query. -/
def noFailure (d : Discovery (Litep2pBackend.Session Nat Nat Nat Nat) Nat Nat) :
    Step (Litep2pBackend.Act Nat Nat) Litep2pBackend.Readiness Nat → Bool
  | .poll ready =>
    match (Litep2pBackend.pollFirst ready.kad d.backend.found).1 with
    | .ready (some (.queryFailed _)) => false
    | _ => true
  | _ => true

theorem no_failure {d : Discovery (Litep2pBackend.Session Nat Nat Nat Nat) Nat Nat}
    {l : Step (Litep2pBackend.Act Nat Nat) Litep2pBackend.Readiness Nat} (checked : noFailure d l = true) :
    ∀ ready, l = .poll ready → ¬d.backend.TakesFailure ready := by
  rintro ready rfl ⟨_, id, taken⟩
  simp only [noFailure, taken] at checked
  cases checked

/-- After a timeout over libp2p, and a success over litep2p, fifty ids are kept
and all live. -/
theorem ended_queries_refilled :
    (∃ d, libp2pDriver.replay libp2pRun = some d ∧ d.QueriesLive Libp2pBackend.Session.Live ∧ 50 ≤ d.queries.card) ∧
    ∃ d, litep2pDriver.replay litep2pRun = some d ∧ d.QueriesLive Litep2pBackend.Session.Live ∧
      50 ≤ d.queries.card := by
  have ends : (libp2pDriver.replay libp2pRun).map Discovery.phase = some .waiting := by
    decide +kernel
  have ends' : (litep2pDriver.replay litep2pRun).map Discovery.phase = some .waiting := by
    decide +kernel
  obtain ⟨d, run, waits⟩ := Option.map_eq_some_iff.mp ends
  obtain ⟨d', run', waits'⟩ := Option.map_eq_some_iff.mp ends'
  obtain ⟨always, admitted⟩ := kept_queries_live_iff Nat (⟨id, id⟩ : Conversion Nat Nat Nat Nat) ⟨id, id⟩
    (fun _ => some 0) (⟨id, id⟩ : Conversion Nat Nat Nat Nat) 100 [] (List.range 10)
  obtain ⟨live, restored⟩ := always libp2pRun d run
  have checked : litep2pDriver.checksFrom noFailure litep2pDriver.start litep2pRun = true := by
    decide +kernel
  obtain ⟨live', restored'⟩ := (admitted litep2pRun d' run').mpr (Machine.checks_meet (fun _ _ => no_failure) checked)
    litep2pRun [] d' (List.append_nil _).symm run'
  exact ⟨⟨d, run, live, restored waits⟩, d', run', live', restored' waits'⟩

/-- One of the first queries fails, another succeeds. -/
def failedRun : List (Step (Litep2pBackend.Act Nat Nat) Litep2pBackend.Readiness Nat) :=
  refillRun .start ⟨true, true, true, true⟩ [.kad (.queryFailed 0), .kad (.findNodeSuccess 1 7 [])]

/-- The refill keeps the id of the failed query, as one of fifty, and the backend
has nothing more to report of it. -/
theorem failed_query_kept : ∃ d, litep2pDriver.replay failedRun = some d ∧ d.phase = .waiting ∧ d.queries.card = 50 ∧
    ⟨0⟩ ∈ d.queries ∧ ¬d.backend.Live ⟨0⟩ := by
  have ends : (litep2pDriver.replay failedRun).map (fun d =>
      (d.phase, d.queries.card, decide (⟨0⟩ ∈ d.queries), decide (0 ∈ d.backend.running), d.backend.queued)) =
        some (.waiting, 50, true, false, []) := by
    decide +kernel
  obtain ⟨d, run, shown⟩ := Option.map_eq_some_iff.mp ends
  obtain ⟨waits, shown⟩ := Prod.mk.inj shown
  obtain ⟨fifty, shown⟩ := Prod.mk.inj shown
  obtain ⟨kept, shown⟩ := Prod.mk.inj shown
  obtain ⟨ended, taken⟩ := Prod.mk.inj shown
  refine ⟨d, run, waits, fifty, of_decide_eq_true kept, ?_⟩
  rintro (runs | queued)
  · exact of_decide_eq_false ended runs
  · rw [taken] at queued
    exact List.not_mem_nil queued

end Subp2pExplorer.Backends
