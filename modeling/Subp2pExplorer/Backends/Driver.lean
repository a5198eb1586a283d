import Mathlib.Data.Finset.Card
import Subp2pExplorer.Lib.Runs
import Subp2pExplorer.Backends.Backends

/-! The driver of the benchmark over a network backend. It keeps the ids of its
queries until an event ends them, and starts queries until fifty are kept. The
backend is any that starts queries and is polled; what its background task does
comes between the steps of the driver. -/
namespace Subp2pExplorer.Backends
open Lib Notifications

/-- A backend as the driver uses it. A call of `find_node` is in two parts,
before and after it waits. `Act` is what its background task does, `Turn` what
is left open of a poll. -/
structure NetworkBackend (β Act Turn PeerId Multiaddr : Type) where
  background : Act → β → Option β
  callFindNode : PeerId → β → Option β
  resumeFindNode : β → Option (QueryId × β)
  addKnownPeer : PeerId → List Multiaddr → β → Option β
  pollNext : Turn → β → Option (Poll (Option (NetworkEvent PeerId Multiaddr)) × β)

/-- Where the driver is: it has bootnodes to add, first queries to start, waits
for an event, starts further queries, or has left its loop. -/
inductive Phase (PeerId Multiaddr : Type) where
  | connecting (bootnodes : List (PeerId × Multiaddr))
  | starting (left : Nat)
  | waiting
  | refilling
  | finished
  deriving DecidableEq

/-- The driver, with the ids of `queries`; of the times only the number matters. -/
structure Discovery (β PeerId Multiaddr : Type) where
  backend : β
  peersData : Map PeerId (Finset Multiaddr)
  queries : Finset QueryId
  queryTimes : Nat
  numQueries : Nat
  peerIter : List PeerId
  calling : Bool
  phase : Phase PeerId Multiaddr

inductive Step (Act Turn PeerId : Type) where
  | background (act : Act)
  | addBootnode
  | callFindNode (random : PeerId)
  | resumeFindNode
  | poll (turn : Turn)

namespace Discovery
variable {β Act Turn PeerId Multiaddr : Type} [DecidableEq PeerId] [DecidableEq Multiaddr]
  (net : NetworkBackend β Act Turn PeerId Multiaddr) (numPeers : Nat)

/-- The addresses of a peer, added to those it has. -/
def insertAddresses (peersData : Map PeerId (Finset Multiaddr)) (peer : PeerId) (addresses : List Multiaddr) :
    Map PeerId (Finset Multiaddr) :=
  peersData.upsert peer (fun entry => entry ∪ addresses.toFinset) addresses.toFinset

/-- A peer that was found, made known to the backend. -/
def discover (d : Discovery β PeerId Multiaddr) (found : PeerId × List Multiaddr) :
    Option (Discovery β PeerId Multiaddr) := do
  let backend ← net.addKnownPeer found.1 found.2 d.backend
  some { d with
    backend := backend
    peersData := insertAddresses d.peersData found.1 found.2 }

/-- The id of a query that finished is removed. -/
def finishQuery (queryId : QueryId) (d : Discovery β PeerId Multiaddr) : Discovery β PeerId Multiaddr :=
  if queryId ∈ d.queries then
    { d with
      queries := d.queries.erase queryId
      queryTimes := d.queryTimes + 1 }
  else d

def handleEvent (d : Discovery β PeerId Multiaddr) :
    NetworkEvent PeerId Multiaddr → Option (Discovery β PeerId Multiaddr)
  | .peerIdentified peer _ _ _ _ listenAddresses => d.discover net (peer, listenAddresses)
  | .findNode queryId _ peers => peers.foldlM (discover net) (d.finishQuery queryId)

/-- The refill loop: it goes on while fewer than fifty queries are kept. -/
def refill (d : Discovery β PeerId Multiaddr) : Discovery β PeerId Multiaddr :=
  { d with phase := if d.queries.card < 50 then .refilling else .waiting }

/-- The end of an iteration: enough peers, or further queries. -/
def endIteration (d : Discovery β PeerId Multiaddr) : Discovery β PeerId Multiaddr :=
  if numPeers ≤ d.peersData.size then { d with phase := .finished } else d.refill

/-- The peer a query is for. The first queries unwrap the iterator, the others
take a random peer at its end. -/
def nextPeer (random : PeerId) (d : Discovery β PeerId Multiaddr) : Option PeerId :=
  match d.phase with
  | .starting (_ + 1) => d.peerIter.head?
  | .refilling => some (d.peerIter.head?.getD random)
  | _ => none

/-- A query was started and its id is kept. -/
def startQuery (queryId : QueryId) (backend : β) (d : Discovery β PeerId Multiaddr) : Discovery β PeerId Multiaddr :=
  let d := { d with
    backend := backend
    queries := insert queryId d.queries
    numQueries := d.numQueries + 1
    calling := false }
  match d.phase with
  | .starting (left + 1) => { d with phase := .starting left }
  | .refilling => d.refill
  | _ => d

/-- A poll of `backend.next()`, where the driver waits for it. -/
def poll (turn : Turn) (d : Discovery β PeerId Multiaddr) : Option (Discovery β PeerId Multiaddr) := do
  let (result, backend) ← net.pollNext turn d.backend
  let d := { d with backend := backend }
  match result with
  | .pending => some d
  | .ready none => some { d with phase := .finished }
  | .ready (some event) => (d.handleEvent net event).map (endIteration numPeers)

def next (d : Discovery β PeerId Multiaddr) : Step Act Turn PeerId → Option (Discovery β PeerId Multiaddr)
  | .background act => (net.background act d.backend).map fun backend => { d with backend := backend }
  | .addBootnode =>
    match d.phase with
    | .connecting [] => some { d with phase := .starting 10 }
    | .connecting ((peer, address) :: bootnodes) => (net.addKnownPeer peer [address] d.backend).map fun backend =>
      { d with
        backend := backend
        phase := .connecting bootnodes }
    | _ => none
  | .callFindNode random =>
    if d.calling then none
    else do
      let peer ← d.nextPeer random
      let backend ← net.callFindNode peer d.backend
      some { d with
        backend := backend
        peerIter := d.peerIter.tail
        calling := true }
  | .resumeFindNode =>
    if d.calling then (net.resumeFindNode d.backend).map fun (queryId, backend) => d.startQuery queryId backend
    else none
  | .poll turn =>
    match d.phase with
    | .starting 0 | .waiting => d.poll net numPeers turn
    | _ => none

/-- `discovery`. -/
def discovery (backend : β) (bootnodes : List (PeerId × Multiaddr)) (peerIds : List PeerId) :
    Machine (Discovery β PeerId Multiaddr) (Step Act Turn PeerId) where
  start := ⟨backend, ∅, ∅, 0, 0, peerIds, false, .connecting bootnodes⟩
  next := next net numPeers

/-! ## What a step does to the kept ids -/

variable {net numPeers} {d d' : Discovery β PeerId Multiaddr}

/-- The ids that are kept after an event. -/
def survivors (queries : Finset QueryId) : NetworkEvent PeerId Multiaddr → Finset QueryId
  | .peerIdentified .. => queries
  | .findNode queryId _ _ => queries.erase queryId

omit [DecidableEq PeerId] [DecidableEq Multiaddr] in
theorem finish_query (queryId : QueryId) (d : Discovery β PeerId Multiaddr) :
    (d.finishQuery queryId).queries = d.queries.erase queryId ∧ (d.finishQuery queryId).backend = d.backend := by
  unfold finishQuery
  split
  · exact ⟨rfl, rfl⟩
  · exact ⟨(Finset.erase_eq_of_notMem ‹_›).symm, rfl⟩

omit [DecidableEq PeerId] [DecidableEq Multiaddr] in
theorem refilled (d : Discovery β PeerId Multiaddr) (restored : d.refill.phase = .waiting) :
    50 ≤ d.refill.queries.card := by
  unfold refill at restored ⊢
  dsimp only at restored ⊢
  split at restored
  · cases restored
  · omega

omit [DecidableEq PeerId] [DecidableEq Multiaddr] in
theorem start_query (queryId : QueryId) (backend : β) (d : Discovery β PeerId Multiaddr) :
    (d.startQuery queryId backend).queries = insert queryId d.queries ∧
      (d.startQuery queryId backend).backend = backend := by
  unfold startQuery
  dsimp only
  split <;> exact ⟨rfl, rfl⟩

omit [DecidableEq PeerId] [DecidableEq Multiaddr] in
theorem end_iteration (d : Discovery β PeerId Multiaddr) :
    (d.endIteration numPeers).queries = d.queries ∧ (d.endIteration numPeers).backend = d.backend := by
  unfold endIteration
  split <;> exact ⟨rfl, rfl⟩

theorem bootnode_origin (taken : next net numPeers d .addBootnode = some d') :
    d' = { d with phase := .starting 10 } ∨
      ∃ peer address bootnodes backend, net.addKnownPeer peer [address] d.backend = some backend ∧
        d' = { d with
          backend := backend
          phase := .connecting bootnodes } := by
  simp only [next] at taken
  split at taken
  · exact .inl (Option.some_inj.mp taken).symm
  · rename_i peer address bootnodes _
    obtain ⟨backend, added, rfl⟩ := Option.map_eq_some_iff.mp taken
    exact .inr ⟨peer, address, bootnodes, backend, added, rfl⟩
  · cases taken

theorem call_origin {random : PeerId} (taken : next net numPeers d (.callFindNode random) = some d') :
    ∃ peer backend, net.callFindNode peer d.backend = some backend ∧
      d' = { d with
        backend := backend
        peerIter := d.peerIter.tail
        calling := true } := by
  simp only [next, Option.ite_none_left_eq_some, bind, Option.bind_eq_some_iff, Option.some_inj] at taken
  obtain ⟨_, peer, _, backend, called, rfl⟩ := taken
  exact ⟨peer, backend, called, rfl⟩

theorem resume_origin (taken : next net numPeers d .resumeFindNode = some d') :
    ∃ queryId backend, net.resumeFindNode d.backend = some (queryId, backend) ∧ d' = d.startQuery queryId backend := by
  simp only [next, Option.ite_none_right_eq_some, Option.map_eq_some_iff] at taken
  obtain ⟨_, ⟨queryId, backend⟩, resumed, rfl⟩ := taken
  exact ⟨queryId, backend, resumed, rfl⟩

/-- What a poll of the driver comes from. -/
theorem poll_origin {turn : Turn} (taken : next net numPeers d (.poll turn) = some d') :
    ∃ result backend, net.pollNext turn d.backend = some (result, backend) ∧
      (match result with
        | .pending => some { d with backend := backend }
        | .ready none => some { d with
          backend := backend
          phase := .finished }
        | .ready (some event) =>
          (handleEvent net { d with backend := backend } event).map (endIteration numPeers)) = some d' := by
  have polled : d.poll net numPeers turn = some d' := by
    simp only [next] at taken
    split at taken
    · exact taken
    · exact taken
    · cases taken
  simp only [poll, bind, Option.bind_eq_some_iff] at polled
  obtain ⟨⟨result, backend⟩, polled, turned⟩ := polled
  exact ⟨result, backend, polled, turned⟩

/-- A step of the backend by which no query ends and none is held that was not. -/
def Steady (Live Held : β → QueryId → Prop) (b b' : β) : Prop :=
  (∀ queryId, Live b queryId → Live b' queryId) ∧ ∀ queryId, Held b' queryId → Held b queryId

omit [DecidableEq PeerId] [DecidableEq Multiaddr] in
theorem Steady.refl {Live Held : β → QueryId → Prop} (b : β) : Steady Live Held b b :=
  ⟨fun _ live => live, fun _ held => held⟩

omit [DecidableEq PeerId] [DecidableEq Multiaddr] in
theorem Steady.trans {Live Held : β → QueryId → Prop} {a b c : β} (first : Steady Live Held a b)
    (second : Steady Live Held b c) : Steady Live Held a c :=
  ⟨fun queryId live => second.1 queryId (first.1 queryId live),
    fun queryId held => first.2 queryId (second.2 queryId held)⟩

/-- What the driver relies on. The backend has queries that are live, and holds
some of them under an id it returned. A query is live when its id is returned,
and ends only with the `findNode` event of that id, as long as the polls are
admitted; after that event it is not held. -/
structure Tracks (net : NetworkBackend β Act Turn PeerId Multiaddr) (Inv : β → Prop) (Live Held : β → QueryId → Prop)
    (Admits : Turn → β → Prop) : Prop where
  background : ∀ {act b b'}, Inv b → net.background act b = some b' → Inv b' ∧ Steady Live Held b b'
  callFindNode : ∀ {peer b b'}, Inv b → net.callFindNode peer b = some b' → Inv b' ∧ Steady Live Held b b'
  resumeFindNode : ∀ {b b' queryId}, Inv b → net.resumeFindNode b = some (queryId, b') →
    Inv b' ∧ Live b' queryId ∧ (∀ other, Live b other → Live b' other) ∧
      ∀ other, Held b' other → other = queryId ∨ Held b other
  addKnownPeer : ∀ {peer addresses b b'}, Inv b → net.addKnownPeer peer addresses b = some b' →
    Inv b' ∧ Steady Live Held b b'
  pollNext : ∀ {turn b b' result}, Inv b → net.pollNext turn b = some (result, b') →
    Inv b' ∧
    (Admits turn b → ∀ queryId, Live b queryId →
      Live b' queryId ∨ ∃ target peers, result = .ready (some (.findNode queryId target peers))) ∧
    ∀ queryId, Held b' queryId →
      Held b queryId ∧ ∀ target peers, result ≠ .ready (some (.findNode queryId target peers))

/-- Every kept id is that of a live query. -/
def QueriesLive (Live : β → QueryId → Prop) (d : Discovery β PeerId Multiaddr) : Prop :=
  ∀ queryId ∈ d.queries, Live d.backend queryId

/-- Every held id is kept. -/
def HeldKept (Held : β → QueryId → Prop) (d : Discovery β PeerId Multiaddr) : Prop :=
  ∀ queryId, Held d.backend queryId → queryId ∈ d.queries

/-- A step that keeps the invariant of the backend and the held ids, and where
it is admitted the live ones. -/
structure Keeps (Inv : β → Prop) (Live Held : β → QueryId → Prop) (admitted : Prop)
    (d d' : Discovery β PeerId Multiaddr) : Prop where
  inv : Inv d'.backend
  live : admitted → QueriesLive Live d → QueriesLive Live d'
  held : HeldKept Held d → HeldKept Held d'

section Rule
variable {Inv : β → Prop} {Live Held : β → QueryId → Prop} {Admits : Turn → β → Prop} {admitted : Prop}

omit [DecidableEq PeerId] [DecidableEq Multiaddr] in
/-- A step of the backend alone. -/
theorem Steady.keeps (queries : d'.queries = d.queries)
    (steady : Inv d'.backend ∧ Steady Live Held d.backend d'.backend) : Keeps Inv Live Held admitted d d' where
  inv := steady.1
  live _ live queryId member := by
    rw [queries] at member
    exact steady.2.1 queryId (live queryId member)
  held kept queryId held := by
    rw [queries]
    exact kept queryId (steady.2.2 queryId held)

variable (tracks : Tracks net Inv Live Held Admits)
include tracks

theorem discover_steady {found : PeerId × List Multiaddr} (inv : Inv d.backend)
    (discovered : d.discover net found = some d') :
    d'.queries = d.queries ∧ Inv d'.backend ∧ Steady Live Held d.backend d'.backend := by
  simp only [discover, bind, Option.bind_eq_some_iff, Option.some_inj] at discovered
  obtain ⟨backend, added, rfl⟩ := discovered
  exact ⟨rfl, tracks.addKnownPeer inv added⟩

theorem discover_all_steady {peers : List (PeerId × List Multiaddr)} (inv : Inv d.backend)
    (discovered : peers.foldlM (discover net) d = some d') :
    d'.queries = d.queries ∧ Inv d'.backend ∧ Steady Live Held d.backend d'.backend := by
  induction peers generalizing d with
  | nil =>
    cases discovered
    exact ⟨rfl, inv, .refl _⟩
  | cons found peers ih =>
    rw [List.foldlM_cons] at discovered
    obtain ⟨next, first, rest⟩ := Option.bind_eq_some_iff.mp discovered
    obtain ⟨same, inv, steady⟩ := discover_steady tracks inv first
    obtain ⟨same', inv, steady'⟩ := ih inv rest
    exact ⟨same'.trans same, inv, steady.trans steady'⟩

theorem handle_event_steady {event : NetworkEvent PeerId Multiaddr} (inv : Inv d.backend)
    (handled : d.handleEvent net event = some d') :
    d'.queries = survivors d.queries event ∧ Inv d'.backend ∧ Steady Live Held d.backend d'.backend := by
  cases event with
  | peerIdentified => exact discover_steady tracks inv handled
  | findNode queryId target peers =>
    obtain ⟨erased, same⟩ := finish_query queryId d
    rw [← same] at inv ⊢
    obtain ⟨queries, inv', steady⟩ := discover_all_steady tracks inv handled
    exact ⟨queries.trans erased, inv', steady⟩

/-- A kept id survives the event unless it is that of the query that ended. -/
theorem poll_keeps {turn : Turn} (inv : Inv d.backend) (taken : next net numPeers d (.poll turn) = some d') :
    Keeps Inv Live Held (Admits turn d.backend) d d' := by
  obtain ⟨result, backend, polled, turned⟩ := poll_origin taken
  obtain ⟨inv, live, held⟩ := tracks.pollNext inv polled
  have quiet : (∀ queryId target peers, result ≠ .ready (some (.findNode queryId target peers))) →
      d'.queries = d.queries → d'.backend = backend → Keeps Inv Live Held (Admits turn d.backend) d d' := by
    intro other queries same
    refine ⟨?_, fun admitted kept queryId member => ?_, fun kept queryId holds => ?_⟩
    · rw [same]
      exact inv
    · rw [queries] at member
      rw [same]
      refine (live admitted queryId (kept queryId member)).resolve_right ?_
      rintro ⟨target, peers, ended⟩
      exact other queryId target peers ended
    · rw [same] at holds
      rw [queries]
      exact kept queryId (held queryId holds).1
  cases result with
  | pending =>
    cases turned
    exact quiet (fun _ _ _ findNode => nomatch findNode) rfl rfl
  | ready event =>
    cases event with
    | none =>
      cases turned
      exact quiet (fun _ _ _ findNode => nomatch findNode) rfl rfl
    | some event =>
      obtain ⟨handled, handles, rfl⟩ := Option.map_eq_some_iff.mp turned
      obtain ⟨queries, inv, steady⟩ := handle_event_steady tracks (d := { d with backend := backend }) inv handles
      obtain ⟨same, still⟩ : (endIteration numPeers handled).queries = handled.queries ∧
          (endIteration numPeers handled).backend = handled.backend := end_iteration handled
      refine ⟨by rw [still]; exact inv, fun admitted kept queryId member => ?_, fun kept queryId holds => ?_⟩
      · rw [same, queries] at member
        rw [still]
        refine steady.1 queryId ?_
        have before : queryId ∈ d.queries := by
          cases event with
          | peerIdentified => exact member
          | findNode => exact Finset.mem_of_mem_erase member
        refine (live admitted queryId (kept queryId before)).resolve_right ?_
        rintro ⟨target, peers, ended⟩
        cases ended
        exact absurd rfl (Finset.ne_of_mem_erase member)
      · rw [still] at holds
        rw [same, queries]
        obtain ⟨holds, other⟩ := held queryId (steady.2 queryId holds)
        cases event with
        | peerIdentified => exact kept queryId holds
        | findNode ended target peers =>
          refine Finset.mem_erase.mpr ⟨fun same => other target peers ?_, kept queryId holds⟩
          rw [same]

/-- Each step keeps what the runs are about. -/
theorem next_keeps {l : Step Act Turn PeerId} (inv : Inv d.backend) (taken : next net numPeers d l = some d') :
    Keeps Inv Live Held (∀ turn, l = .poll turn → Admits turn d.backend) d d' := by
  cases l with
  | background act =>
    obtain ⟨backend, acted, rfl⟩ := Option.map_eq_some_iff.mp taken
    exact Steady.keeps rfl (tracks.background inv acted)
  | addBootnode =>
    obtain rfl | ⟨_, _, _, backend, added, rfl⟩ := bootnode_origin taken
    · exact Steady.keeps rfl ⟨inv, .refl d.backend⟩
    · exact Steady.keeps rfl (tracks.addKnownPeer inv added)
  | callFindNode random =>
    obtain ⟨_, backend, called, rfl⟩ := call_origin taken
    exact Steady.keeps rfl (tracks.callFindNode inv called)
  | resumeFindNode =>
    obtain ⟨queryId, backend, resumed, rfl⟩ := resume_origin taken
    obtain ⟨inv, fresh, live, held⟩ := tracks.resumeFindNode inv resumed
    obtain ⟨queries, same⟩ := start_query queryId backend d
    refine ⟨by rw [same]; exact inv, fun _ kept other member => ?_, fun kept other holds => ?_⟩
    · rw [queries] at member
      rw [same]
      obtain rfl | member := Finset.mem_insert.mp member
      · exact fresh
      · exact live other (kept other member)
    · rw [same] at holds
      rw [queries]
      exact Finset.mem_insert.mpr ((held other holds).imp_right (kept other))
  | poll turn =>
    have kept := poll_keeps tracks inv taken
    exact ⟨kept.inv, fun admitted => kept.live (admitted turn rfl), kept.held⟩

end Rule

/-! ## Whole runs -/

/-- Where the driver waits after a refill, fifty ids are kept. -/
def Restored (d : Discovery β PeerId Multiaddr) : Prop := d.phase = .waiting → 50 ≤ d.queries.card

theorem next_restored {l : Step Act Turn PeerId} (taken : next net numPeers d l = some d') (restored : d.Restored) :
    d'.Restored := by
  cases l with
  | background act =>
    obtain ⟨backend, acted, rfl⟩ := Option.map_eq_some_iff.mp taken
    exact restored
  | addBootnode =>
    obtain rfl | ⟨_, _, _, backend, added, rfl⟩ := bootnode_origin taken
    · exact fun waits => nomatch waits
    · exact fun waits => nomatch waits
  | callFindNode random =>
    obtain ⟨_, backend, called, rfl⟩ := call_origin taken
    exact restored
  | resumeFindNode =>
    obtain ⟨queryId, backend, resumed, rfl⟩ := resume_origin taken
    unfold Restored startQuery
    dsimp only
    split
    · exact fun waits => nomatch waits
    · exact refilled _
    · exact fun waits => (restored waits).trans (Finset.card_le_card (Finset.subset_insert _ _))
  | poll turn =>
    obtain ⟨result, backend, polled, turned⟩ := poll_origin taken
    cases result with
    | pending =>
      cases turned
      exact restored
    | ready event =>
      cases event with
      | none =>
        cases turned
        exact fun waits => nomatch waits
      | some event =>
        obtain ⟨handled, handles, rfl⟩ := Option.map_eq_some_iff.mp turned
        unfold Restored endIteration
        split
        · exact fun waits => nomatch waits
        · exact refilled _

section Runs
variable {Inv : β → Prop} {Live Held : β → QueryId → Prop} {Admits : Turn → β → Prop} {backend : β}
  {bootnodes : List (PeerId × Multiaddr)} {peerIds : List PeerId} {labels : List (Step Act Turn PeerId)}

/-- Over a backend all of whose polls are admitted, kept ids are live. -/
theorem queries_live (tracks : Tracks net Inv Live Held fun _ _ => True) (inv : Inv backend)
    (run : (discovery net numPeers backend bootnodes peerIds).replay labels = some d) :
    QueriesLive Live d ∧ d.Restored := by
  refine (Machine.invariant (I := fun d => Inv d.backend ∧ QueriesLive Live d ∧ d.Restored) ?_ ?_ run).2
  · rintro d l d' ⟨inv, live, restored⟩ taken
    have keeps := next_keeps tracks inv taken
    exact ⟨keeps.inv, keeps.live (fun _ _ => trivial) live, next_restored taken restored⟩
  · exact ⟨inv, fun queryId member => absurd member (Finset.notMem_empty queryId), fun waits => nomatch waits⟩

/-- Over a backend that loses a held query in every other poll, kept ids are
live all along a run exactly if its polls are admitted. -/
theorem queries_live_iff (tracks : Tracks net Inv Live Held Admits) (inv : Inv backend)
    (none_held : ∀ queryId, ¬Held backend queryId)
    (loses : ∀ {turn b b' result}, Inv b → net.pollNext turn b = some (result, b') → ¬Admits turn b →
      result = .pending ∧ ∃ queryId, Held b queryId ∧ ¬Live b' queryId)
    (run : (discovery net numPeers backend bootnodes peerIds).replay labels = some d) :
    (∀ earlier later d, labels = earlier ++ later →
      (discovery net numPeers backend bootnodes peerIds).replay earlier = some d →
      QueriesLive Live d ∧ d.Restored) ↔
    (discovery net numPeers backend bootnodes peerIds).Meets
      (fun d l => ∀ turn, l = .poll turn → Admits turn d.backend) labels := by
  have always : ∀ {earlier : List (Step Act Turn PeerId)} {d : Discovery β PeerId Multiaddr},
      (discovery net numPeers backend bootnodes peerIds).replay earlier = some d →
      Inv d.backend ∧ HeldKept Held d := by
    intro earlier d run
    refine Machine.invariant (I := fun d : Discovery β PeerId Multiaddr => Inv d.backend ∧ HeldKept Held d) ?_ ?_ run
    · rintro d l d' ⟨inv, kept⟩ taken
      have keeps := next_keeps tracks inv taken
      exact ⟨keeps.inv, keeps.held kept⟩
    · exact ⟨inv, fun queryId held => absurd held (none_held queryId)⟩
  rw [← Machine.throughout_iff (I := fun d => (Inv d.backend ∧ HeldKept Held d) ∧ QueriesLive Live d ∧ d.Restored)
    ?_ ?_ run]
  · exact ⟨fun each earlier later d split taken => ⟨always taken, each earlier later d split taken⟩,
      fun each earlier later d split taken => (each earlier later d split taken).2⟩
  · have nothing : (discovery net numPeers backend bootnodes peerIds).replay [] =
        some (discovery net numPeers backend bootnodes peerIds).start := rfl
    exact ⟨always nothing, fun queryId member => absurd member (Finset.notMem_empty queryId),
      fun waits => nomatch waits⟩
  · rintro d l d' ⟨⟨inv, kept⟩, live, restored⟩ taken
    have keeps := next_keeps tracks inv taken
    constructor
    · rintro ⟨_, live', _⟩ turn rfl
      by_contra refused
      obtain ⟨result, backend', polled, turned⟩ := poll_origin taken
      obtain ⟨rfl, queryId, held, lost⟩ := loses inv polled refused
      cases turned
      exact lost (live' queryId (kept queryId held))
    · intro admitted
      exact ⟨⟨keeps.inv, keeps.held kept⟩, keeps.live admitted live, next_restored taken restored⟩

end Runs

end Discovery
end Subp2pExplorer.Backends
