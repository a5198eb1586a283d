import Subp2pExplorer.Network.Discovery

/-! The tables of the network discovery against the events it has handled: what
was dialed, what surfaced, and the queries in flight. -/
namespace Subp2pExplorer.Network
open Lib Notifications Subp2pExplorer.Types

namespace SwarmEvent
variable {PeerId QueryId : Type} [DecidableEq PeerId]

omit [DecidableEq PeerId] in
/-- The peer an event surfaces addresses for, with these addresses. -/
def surfaced : SwarmEvent PeerId QueryId → Option (PeerId × List (LibP2pMultiaddr PeerId))
  | .routingUpdated peer addresses => some (peer, addresses)
  | .routablePeer peer address => some (peer, [address])
  | .pendingRoutablePeer peer address => some (peer, [address])
  | _ => none

/-- A dialing event that names this peer. -/
def dials (peer : PeerId) : SwarmEvent PeerId QueryId → Bool
  | .dialing (some peerId) => peerId = peer
  | _ => false

end SwarmEvent

/-- All that surfaced for a peer. -/
def surfacedFor {PeerId QueryId : Type} [DecidableEq PeerId] (peer : PeerId)
    (events : List (SwarmEvent PeerId QueryId)) : List (LibP2pMultiaddr PeerId) :=
  ((events.filterMap SwarmEvent.surfaced).filter (·.1 = peer)).flatMap Prod.snd

namespace NetworkDiscovery
variable {PeerId QueryId : Type} [DecidableEq PeerId] [DecidableEq QueryId] {queryId : Nat → QueryId}
  {s : NetworkDiscovery PeerId QueryId} {events : List (SwarmEvent PeerId QueryId)}

/-- The tables say what the events said. -/
structure TablesMatch (queryId : Nat → QueryId) (events : List (SwarmEvent PeerId QueryId))
    (s : NetworkDiscovery PeerId QueryId) : Prop where
  dialedPeers : ∀ peer, (s.dialedPeers.lookup peer).getD 0 = events.countP (·.dials peer)
  discoveredPeers : ∀ peer, peer ∈ s.discoveredWithAddresses ↔
    ∃ addrs, (peer, addrs) ∈ events.filterMap SwarmEvent.surfaced
  discoveredAddresses : ∀ peer, (s.discoveredWithAddresses.lookup peer).getD ∅ = (surfacedFor peer events).toFinset
  dialedAddresses : ∀ addr, addr ∈ s.dialedAddresses ↔ ∃ peer, addr ∈ (s.discoveredWithAddresses.lookup peer).getD ∅
  dialedOnce : s.swarm.dials.Nodup
  dialed : ∀ addr, addr ∈ s.swarm.dials ↔ addr ∈ s.dialedAddresses
  queries : ∀ earlier id later, events = earlier ++ .closestPeers id :: later →
    (driveEvents queryId (earlier ++ [.closestPeers id])).queries.card = maxQueries

/-- What an event does to the tables: it counts a dialed peer, replaces a query,
surfaces addresses, or is about something else. -/
inductive Handled (queryId : Nat → QueryId) (s : NetworkDiscovery PeerId QueryId) :
    SwarmEvent PeerId QueryId → NetworkDiscovery PeerId QueryId → Prop where
  | dialing (peer : PeerId) :
      Handled queryId s (.dialing (some peer)) { s with dialedPeers := s.dialedPeers.upsert peer (· + 1) 0 }
  | closestPeers (id : QueryId) :
      Handled queryId s (.closestPeers id) (topUpQueries queryId { s with queries := s.queries.erase id })
  | surfaced {event : SwarmEvent PeerId QueryId} (peer : PeerId) (addrs : List (LibP2pMultiaddr PeerId))
      (surfaced : event.surfaced = some (peer, addrs)) (silent : ∀ peer, event.dials peer = false) :
      Handled queryId s event (discovered peer addrs s)
  | quiet {event : SwarmEvent PeerId QueryId} (peerDetails : Map PeerId Info) (peerRole : Map PeerId ProtocolRole)
      (surfaced : event.surfaced = none) (silent : ∀ peer, event.dials peer = false) :
      Handled queryId s event { s with peerDetails := peerDetails, peerRole := peerRole }

variable (queryId s) in
theorem handle_event_handled (event : SwarmEvent PeerId QueryId) :
    Handled queryId s event (handleEvent queryId s event) := by
  unfold handleEvent
  cases event with
  | dialing peerId =>
    cases peerId with
    | none => exact .quiet s.peerDetails s.peerRole rfl fun _ => rfl
    | some peer => exact .dialing peer
  | closestPeers id => exact .closestPeers id
  | routingUpdated peer addresses => exact .surfaced peer _ rfl fun _ => rfl
  | routablePeer peer address => exact .surfaced peer _ rfl fun _ => rfl
  | pendingRoutablePeer peer address => exact .surfaced peer _ rfl fun _ => rfl
  | identified peerId info => exact .quiet _ s.peerRole rfl fun _ => rfl
  | other => exact .quiet s.peerDetails s.peerRole rfl fun _ => rfl
  | notifications event =>
    cases event with
    | customProtocolOpen peerId index handshake inbound sender =>
      dsimp only
      cases ProtocolRole.decode handshake with
      | ok role => exact .quiet s.peerDetails _ rfl fun _ => rfl
      | error _ => exact .quiet s.peerDetails s.peerRole rfl fun _ => rfl
    | customProtocolClosed peerId index => exact .quiet s.peerDetails s.peerRole rfl fun _ => rfl
    | notification peerId index message => exact .quiet s.peerDetails s.peerRole rfl fun _ => rfl

theorem drive_events_snoc (event : SwarmEvent PeerId QueryId) :
    driveEvents queryId (events ++ [event]) = handleEvent queryId (driveEvents queryId events) event :=
  List.foldl_concat _ _ _ _

/-! ## Loops of one event -/

/-- Every query in flight was started. -/
def Started (queryId : Nat → QueryId) (s : NetworkDiscovery PeerId QueryId) : Prop :=
  ∀ id ∈ s.queries, ∃ n < s.swarm.started, queryId n = id

omit [DecidableEq PeerId] in
/-- With ids that are fresh, each round of a top-up adds a query. -/
theorem rounds_add (fresh : Function.Injective queryId) (rounds : Nat) (s : NetworkDiscovery PeerId QueryId)
    (started : Started queryId s) :
    Started queryId ((getClosestPeers queryId)^[rounds] s) ∧
      ((getClosestPeers queryId)^[rounds] s).queries.card = s.queries.card + rounds := by
  induction rounds generalizing s with
  | zero => exact ⟨started, rfl⟩
  | succ rounds ih =>
    have new : queryId s.swarm.started ∉ s.queries := by
      intro member
      obtain ⟨n, before, same⟩ := started _ member
      exact Nat.ne_of_lt before (fresh same)
    have kept : Started queryId (getClosestPeers queryId s) := by
      intro id member
      rcases Finset.mem_insert.mp member with rfl | member
      · exact ⟨_, Nat.lt_succ_self _, rfl⟩
      · obtain ⟨n, before, same⟩ := started id member
        exact ⟨n, Nat.lt_succ_of_lt before, same⟩
    obtain ⟨later, count⟩ := ih _ kept
    rw [Function.iterate_succ_apply]
    refine ⟨later, count.trans ?_⟩
    show (insert _ s.queries).card + rounds = _
    rw [Finset.card_insert_of_notMem new]
    omega

omit [DecidableEq PeerId] in
theorem top_up_full (fresh : Function.Injective queryId) (started : Started queryId s)
    (within : s.queries.card ≤ maxQueries) :
    Started queryId (topUpQueries queryId s) ∧ (topUpQueries queryId s).queries.card = maxQueries := by
  obtain ⟨kept, count⟩ := rounds_add fresh (maxQueries - s.queries.card) s started
  exact ⟨kept, count.trans (by omega)⟩

/-- The swarm dialed each dialed address once. -/
def DialedOnce (s : NetworkDiscovery PeerId QueryId) : Prop :=
  s.swarm.dials.Nodup ∧ ∀ addr, addr ∈ s.swarm.dials ↔ addr ∈ s.dialedAddresses

omit [DecidableEq QueryId] in
theorem force_dial_inserts (peer : PeerId) (s : NetworkDiscovery PeerId QueryId) (addr : LibP2pMultiaddr PeerId) :
    (forceDial peer s addr).dialedAddresses = insert addr s.dialedAddresses := by
  unfold forceDial
  split
  · rename_i before
    exact (Finset.insert_eq_of_mem before).symm
  · rfl

omit [DecidableEq QueryId] in
theorem force_dial_once (peer : PeerId) (addr : LibP2pMultiaddr PeerId) (once : DialedOnce s) :
    DialedOnce (forceDial peer s addr) := by
  unfold forceDial
  split
  · exact once
  · rename_i new
    obtain ⟨distinct, exactly⟩ := once
    refine ⟨?_, fun other => ?_⟩
    · exact List.nodup_append.mpr ⟨distinct, List.nodup_singleton _, fun a member b last same => new (by
        rwa [same, List.mem_singleton.mp last, exactly] at member)⟩
    · simp [exactly, or_comm]

omit [DecidableEq QueryId] in
/-- What the dials of surfaced addresses leave alone. -/
theorem force_dials_keep (peer : PeerId) (addrs : List (LibP2pMultiaddr PeerId))
    (s : NetworkDiscovery PeerId QueryId) :
    (addrs.foldl (forceDial peer) s).dialedPeers = s.dialedPeers ∧
      (addrs.foldl (forceDial peer) s).discoveredWithAddresses = s.discoveredWithAddresses ∧
      (addrs.foldl (forceDial peer) s).queries = s.queries ∧
      (addrs.foldl (forceDial peer) s).swarm.started = s.swarm.started := by
  have kept := fold_keeps (f := forceDial peer)
    (fun s : NetworkDiscovery PeerId QueryId => (s.dialedPeers, s.discoveredWithAddresses, s.queries, s.swarm.started))
    (fun s addr => by
      unfold forceDial
      split <;> rfl) addrs s
  simpa only [Prod.mk.injEq] using kept

/-! ## Tables -/

/-- A peer is counted once less often than it is dialed: the first time inserts
a zero. -/
theorem dialed_peers_history (events : List (SwarmEvent PeerId QueryId)) (peer : PeerId) :
    (driveEvents queryId events).dialedPeers.lookup peer =
      if events.countP (·.dials peer) = 0 then none else some (events.countP (·.dials peer) - 1) := by
  induction events using List.reverseRecOn with
  | nil =>
    rw [driveEvents, List.foldl_nil, top_up_keeps NetworkDiscovery.dialedPeers fun _ => rfl]
    exact Finmap.lookup_empty peer
  | append_singleton events event ih =>
    rw [drive_events_snoc, List.countP_append, List.countP_singleton]
    generalize driveEvents queryId events = s at ih ⊢
    have handled := handle_event_handled queryId s event
    generalize handleEvent queryId s event = s' at handled ⊢
    cases handled with
    | dialing named =>
      by_cases here : named = peer
      · subst here
        have counted : SwarmEvent.dials named (.dialing (some named) : SwarmEvent PeerId QueryId) = true :=
          decide_eq_true rfl
        rw [Finmap.lookup_upsert, ih, counted, if_pos rfl, if_neg (Nat.succ_ne_zero _)]
        by_cases never : events.countP (·.dials named) = 0
        · rw [if_pos never, never]
          rfl
        · rw [if_neg never, Option.elim_some]
          exact congrArg some (by omega)
      · rw [Finmap.lookup_upsert_ne _ _ _ (Ne.symm here), ih]
        simp [SwarmEvent.dials, here]
    | closestPeers id =>
      rw [top_up_keeps NetworkDiscovery.dialedPeers fun _ => rfl]
      exact ih
    | surfaced named addrs _ silent =>
      rw [silent peer, if_neg Bool.false_ne_true, Nat.add_zero, ← ih]
      exact congrArg (Finmap.lookup peer) (force_dials_keep _ _ s).1
    | quiet _ _ _ silent =>
      rw [silent peer, if_neg Bool.false_ne_true, Nat.add_zero]
      exact ih

omit [DecidableEq QueryId] in
theorem surfaced_for_snoc (peer : PeerId) (event : SwarmEvent PeerId QueryId) :
    surfacedFor peer (events ++ [event]) = surfacedFor peer events ++
      event.surfaced.elim [] fun entry => if entry.1 = peer then entry.2 else [] := by
  cases surfaced : event.surfaced with
  | none => simp [surfacedFor, surfaced]
  | some entry => by_cases here : entry.1 = peer <;> simp [surfacedFor, surfaced, here]

/-- The discovered peers are those that something surfaced for, with all of it. -/
theorem discovered_history (events : List (SwarmEvent PeerId QueryId)) (peer : PeerId) :
    (peer ∈ (driveEvents queryId events).discoveredWithAddresses ↔
      ∃ addrs, (peer, addrs) ∈ events.filterMap SwarmEvent.surfaced) ∧
    ((driveEvents queryId events).discoveredWithAddresses.lookup peer).getD ∅ = (surfacedFor peer events).toFinset := by
  induction events using List.reverseRecOn with
  | nil =>
    rw [driveEvents, List.foldl_nil, top_up_keeps discoveredWithAddresses fun _ => rfl]
    refine ⟨iff_of_false (Finmap.notMem_empty) (fun ⟨_, member⟩ => by cases member), ?_⟩
    exact congrArg (Option.getD · ∅) (Finmap.lookup_empty peer)
  | append_singleton events event ih =>
    rw [drive_events_snoc, surfaced_for_snoc, List.filterMap_append]
    generalize driveEvents queryId events = s at ih ⊢
    have handled := handle_event_handled queryId s event
    generalize handleEvent queryId s event = s' at handled ⊢
    cases handled with
    | dialing named => simpa [SwarmEvent.surfaced] using ih
    | closestPeers id =>
      rw [top_up_keeps discoveredWithAddresses fun _ => rfl]
      simpa [SwarmEvent.surfaced] using ih
    | surfaced named addrs surfaced _ =>
      have table : (discovered named addrs s).discoveredWithAddresses =
          s.discoveredWithAddresses.upsert named (fun known => known ∪ addrs.toFinset) addrs.toFinset := by
        rw [discovered, (force_dials_keep named addrs s).2.1]
      have added : [event].filterMap SwarmEvent.surfaced = [(named, addrs)] := by
        rw [List.filterMap_cons_some surfaced, List.filterMap_nil]
      rw [table, added, surfaced]
      by_cases here : named = peer
      · subst here
        rw [Finmap.lookup_upsert, ← Finmap.mem_keys, Finmap.keys_upsert, Option.elim_some, if_pos rfl,
          List.toFinset_append, ← ih.2]
        refine ⟨iff_of_true (Finset.mem_insert_self _ _) ⟨addrs, by simp⟩, ?_⟩
        cases s.discoveredWithAddresses.lookup named with
        | none => exact (Finset.empty_union _).symm
        | some known => rfl
      · rw [Finmap.lookup_upsert_ne _ _ _ (Ne.symm here), ← Finmap.mem_keys, Finmap.keys_upsert, Option.elim_some,
          if_neg here, List.append_nil, Finset.mem_insert, or_iff_right (Ne.symm here), Finmap.mem_keys, ih.1]
        refine ⟨exists_congr fun addrs' => ?_, ih.2⟩
        simp [Ne.symm here]
    | quiet _ _ surfaced _ => simpa [surfaced] using ih

/-- What surfaced is dialed, each address once. -/
theorem dialed_history (events : List (SwarmEvent PeerId QueryId)) :
    DialedOnce (driveEvents queryId events) ∧
      ∀ addr, addr ∈ (driveEvents queryId events).dialedAddresses ↔ ∃ peer, addr ∈ surfacedFor peer events := by
  induction events using List.reverseRecOn with
  | nil =>
    have start : driveEvents queryId ([] : List (SwarmEvent PeerId QueryId)) = topUpQueries queryId new := rfl
    rw [DialedOnce, start, top_up_keeps NetworkDiscovery.dialedAddresses fun _ => rfl,
      top_up_keeps (·.swarm.dials) fun _ => rfl]
    refine ⟨⟨List.nodup_nil, fun addr => iff_of_false List.not_mem_nil (Finset.notMem_empty _)⟩, fun addr => ?_⟩
    exact iff_of_false (Finset.notMem_empty _) fun ⟨_, member⟩ => by cases member
  | append_singleton events event ih =>
    rw [drive_events_snoc]
    simp only [surfaced_for_snoc]
    generalize driveEvents queryId events = s at ih ⊢
    have handled := handle_event_handled queryId s event
    generalize handleEvent queryId s event = s' at handled ⊢
    cases handled with
    | dialing named => exact ⟨ih.1, by simpa [SwarmEvent.surfaced] using ih.2⟩
    | closestPeers id =>
      rw [DialedOnce, top_up_keeps NetworkDiscovery.dialedAddresses fun _ => rfl,
        top_up_keeps (·.swarm.dials) fun _ => rfl]
      exact ⟨ih.1, by simpa [SwarmEvent.surfaced] using ih.2⟩
    | surfaced named addrs surfaced _ =>
      have once : DialedOnce (addrs.foldl (forceDial named) s) :=
        List.foldlRecOn addrs (forceDial named) ih.1 fun s held addr _ => force_dial_once named addr held
      refine ⟨once, fun addr => ?_⟩
      show addr ∈ (addrs.foldl (forceDial named) s).dialedAddresses ↔ _
      rw [HashSet.fold_inserts NetworkDiscovery.dialedAddresses (force_dial_inserts named), Finset.mem_union, ih.2,
        List.mem_toFinset, surfaced]
      simp only [Option.elim_some, List.mem_append, exists_or]
      refine or_congr_right ⟨fun member => ⟨named, by rwa [if_pos rfl]⟩, ?_⟩
      rintro ⟨peer, member⟩
      by_cases here : named = peer
      · rwa [if_pos here] at member
      · rw [if_neg here] at member
        cases member
    | quiet _ _ surfaced _ => exact ⟨ih.1, by simpa [surfaced] using ih.2⟩

/-- Between two events all queries are in flight. -/
theorem queries_full (fresh : Function.Injective queryId) (events : List (SwarmEvent PeerId QueryId)) :
    Started queryId (driveEvents queryId events) ∧ (driveEvents queryId events).queries.card = maxQueries := by
  induction events using List.reverseRecOn with
  | nil => exact top_up_full fresh (fun id member => by cases member) (Nat.zero_le _)
  | append_singleton events event ih =>
    rw [drive_events_snoc]
    generalize driveEvents queryId events = s at ih ⊢
    have handled := handle_event_handled queryId s event
    generalize handleEvent queryId s event = s' at handled ⊢
    cases handled with
    | dialing named => exact ih
    | closestPeers id =>
      refine top_up_full fresh (fun other member => ih.1 other (Finset.mem_of_mem_erase member)) ?_
      exact (Finset.card_le_card (Finset.erase_subset _ _)).trans_eq ih.2
    | surfaced named addrs _ _ =>
      obtain ⟨-, -, queries, started⟩ := force_dials_keep named addrs s
      unfold Started
      show (∀ id ∈ (addrs.foldl (forceDial named) s).queries,
          ∃ n < (addrs.foldl (forceDial named) s).swarm.started, _) ∧
        (addrs.foldl (forceDial named) s).queries.card = _
      rw [queries, started]
      exact ih
    | quiet _ _ _ _ => exact ih

/-- The timer that tops up the queries never finds one missing. -/
theorem resubmit_idle (fresh : Function.Injective queryId) (events : List (SwarmEvent PeerId QueryId)) :
    topUpQueries queryId (driveEvents queryId events) = driveEvents queryId events := by
  unfold topUpQueries
  rw [(queries_full fresh events).2, Nat.sub_self]
  rfl

/-- For every history, all tables but one say what the events said, and the
count of dialed peers does exactly if no dialing event named a peer. -/
theorem tables_match_iff (fresh : Function.Injective queryId) (events : List (SwarmEvent PeerId QueryId)) :
    TablesMatch queryId events (driveEvents queryId events) ↔ ∀ peer, .dialing (some peer) ∉ events := by
  have counted :
      (∀ peer, ((driveEvents queryId events).dialedPeers.lookup peer).getD 0 = events.countP (·.dials peer)) ↔
        ∀ peer, .dialing (some peer) ∉ events := by
    refine forall_congr' fun peer => ?_
    rw [dialed_peers_history]
    have named : events.countP (·.dials peer) = 0 ↔ .dialing (some peer) ∉ events := by
      rw [List.countP_eq_zero]
      refine ⟨fun silent member => silent _ member (decide_eq_true rfl), fun absent event member names => ?_⟩
      unfold SwarmEvent.dials at names
      split at names
      · cases of_decide_eq_true names
        exact absent member
      · cases names
    rw [← named]
    split
    · rename_i never
      exact iff_of_true never.symm never
    · rename_i once
      refine iff_of_false (fun same => once ?_) once
      rw [Option.getD_some] at same
      omega
  obtain ⟨⟨distinct, dials⟩, dialed⟩ := @dialed_history PeerId QueryId _ _ queryId events
  constructor
  · exact fun tables => counted.mp tables.dialedPeers
  · intro unnamed
    constructor
    case dialedPeers => exact counted.mpr unnamed
    case discoveredPeers => exact fun peer => (discovered_history events peer).1
    case discoveredAddresses => exact fun peer => (discovered_history events peer).2
    case dialedAddresses =>
      intro addr
      rw [dialed]
      refine exists_congr fun peer => ?_
      rw [(discovered_history events peer).2, List.mem_toFinset]
    case dialedOnce => exact distinct
    case dialed => exact dials
    case queries => exact fun earlier id later _ => (queries_full fresh _).2

/-- An address surfaces twice, and a query is replaced. -/
def surfacing : List (SwarmEvent Nat Nat) :=
  [.routablePeer 7 [.tcp 30333], .dialing none, .closestPeers 0, .routingUpdated 8 [[.tcp 30333], [.udp 30333]]]

theorem surfacing_tables_match : TablesMatch id surfacing (driveEvents id surfacing) :=
  (tables_match_iff Function.injective_id surfacing).mpr fun peer => by simp [surfacing]

/-- A peer that is dialed once is counted as dialed zero times. -/
theorem first_dial_uncounted :
    (driveEvents id [.dialing (some 7)] : NetworkDiscovery Nat Nat).dialedPeers.lookup 7 = some 0 ∧
    ¬ TablesMatch id [.dialing (some 7)] (driveEvents id [.dialing (some 7)] : NetworkDiscovery Nat Nat) := by
  have counted : (driveEvents id [.dialing (some 7)] : NetworkDiscovery Nat Nat).dialedPeers.lookup 7 = some 0 :=
    dialed_peers_history [.dialing (some 7)] 7
  refine ⟨counted, fun tables => ?_⟩
  have same := tables.dialedPeers 7
  rw [counted] at same
  exact absurd same (by decide)

end NetworkDiscovery
end Subp2pExplorer.Network
