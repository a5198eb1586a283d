import Subp2pExplorer.Network.PeerDiscovery
import Subp2pExplorer.Network.Tables

/-! The hunt for one peer is a discovery of the network that also keeps account
of its target. The summary at its end is held against the events handled. -/
namespace Subp2pExplorer.Network
open Lib Notifications Subp2pExplorer.Types

section Events
variable {PeerId QueryId : Type}

/-- The event as the discovery of the network is told of it. -/
def DiscoverPeerEvent.network : DiscoverPeerEvent PeerId QueryId → SwarmEvent PeerId QueryId
  | .closestPeers id _ => .closestPeers id
  | .routingUpdated peer addresses => .routingUpdated peer addresses
  | .routablePeer peer address => .routablePeer peer address
  | .pendingRoutablePeer peer address => .pendingRoutablePeer peer address
  | .identified peerId info => .identified peerId info
  | .notifications event => .notifications event
  | .other => .other

def DiscoverPeerEvent.identifiedPeer : DiscoverPeerEvent PeerId QueryId → Option PeerId
  | .identified peerId _ => some peerId
  | _ => none

def DiscoverPeerTurn.handled : DiscoverPeerTurn PeerId QueryId → Option (DiscoverPeerEvent PeerId QueryId)
  | .event told => some told
  | .resubmit => none
  | .log => none

variable [DecidableEq PeerId]

/-- The addresses reported for the target, where an event counts as a report: a
result that lists some, or a peer that surfaces, with addresses or without. -/
def DiscoverPeerEvent.report (target : PeerId) :
    DiscoverPeerEvent PeerId QueryId → Option (List (LibP2pMultiaddr PeerId))
  | .closestPeers _ result =>
    let addrs := PeerDiscovery.targetAddrs target result.peers
    if addrs.isEmpty then none else some addrs
  | .routingUpdated peer addresses => if peer = target then some addresses else none
  | .routablePeer peer address => if peer = target then some [address] else none
  | .pendingRoutablePeer peer address => if peer = target then some [address] else none
  | _ => none

end Events

/-- The numbers of the summary that `discover_peer` ends with. -/
structure HuntSummary where
  identifiedTarget : Bool
  dhtReports : Nat
  addressesKnown : Nat
  peersSeen : Nat
  peersIdentified : Nat
  addressesDialed : Nat
  deriving DecidableEq

namespace PeerDiscovery

section Views
variable {PeerId QueryId : Type}

def summary (s : PeerDiscovery PeerId QueryId) : HuntSummary where
  identifiedTarget := s.targetIdentified
  dhtReports := s.targetDhtReports
  addressesKnown := s.targetKnownAddresses.card
  peersSeen := s.discoveredWithAddresses.size
  peersIdentified := s.peerDetails.size
  addressesDialed := s.dialedAddresses.card

/-- The hunt without its target. It counts no dialed peers. -/
def network (s : PeerDiscovery PeerId QueryId) : NetworkDiscovery PeerId QueryId where
  swarm := s.swarm
  queries := s.queries
  discoveredWithAddresses := s.discoveredWithAddresses
  peerDetails := s.peerDetails
  peerRole := s.peerRole
  dialedPeers := ∅
  dialedAddresses := s.dialedAddresses

end Views

section Steps
variable {PeerId QueryId : Type} [DecidableEq PeerId] [DecidableEq QueryId] {queryId : Nat → QueryId}
  {s : PeerDiscovery PeerId QueryId} {target : PeerId} {events : List (DiscoverPeerEvent PeerId QueryId)}

omit [DecidableEq PeerId] in
theorem top_up_network (s : PeerDiscovery PeerId QueryId) :
    (topUpQueries queryId s).network = NetworkDiscovery.topUpQueries queryId s.network := by
  have round : Function.Semiconj (network : PeerDiscovery PeerId QueryId → _) (getClosestPeers queryId)
      (NetworkDiscovery.getClosestPeers queryId) := fun _ => rfl
  exact round.iterate_right _ s

omit [DecidableEq QueryId] in
theorem force_dials_network (peer : PeerId) (addrs : List (LibP2pMultiaddr PeerId)) (s : PeerDiscovery PeerId QueryId) :
    (addrs.foldl (forceDial peer) s).network = addrs.foldl (NetworkDiscovery.forceDial peer) s.network := by
  refine (List.foldl_hom network fun s addr => ?_).symm
  unfold forceDial NetworkDiscovery.forceDial
  by_cases before : addr ∈ s.dialedAddresses
  · rw [if_pos before]
    exact if_pos before
  · rw [if_neg before]
    exact if_neg before

omit [DecidableEq QueryId] in
theorem discovered_network (peer : PeerId) (addrs : List (LibP2pMultiaddr PeerId)) (s : PeerDiscovery PeerId QueryId) :
    (discovered peer addrs s).network = NetworkDiscovery.discovered peer addrs s.network := by
  have noted : (if peer = s.target then noteTargetAddresses addrs s else s).network = s.network := by
    split <;> rfl
  have dialed := force_dials_network peer addrs (if peer = s.target then noteTargetAddresses addrs s else s)
  rw [noted] at dialed
  unfold NetworkDiscovery.discovered
  rw [← dialed]
  rfl

/-- An event does to the hunt what it does to a discovery of the network. -/
theorem handle_event_network (event : DiscoverPeerEvent PeerId QueryId) :
    (handleEvent queryId s event).network = NetworkDiscovery.handleEvent queryId s.network event.network := by
  cases event with
  | closestPeers id result =>
    unfold handleEvent closestPeers
    dsimp only
    rw [top_up_network]
    split <;> rfl
  | routingUpdated peer addresses => exact discovered_network peer addresses s
  | routablePeer peer address => exact discovered_network peer [address] s
  | pendingRoutablePeer peer address => exact discovered_network peer [address] s
  | identified peerId info => rfl
  | other => rfl
  | notifications event =>
    cases event with
    | customProtocolOpen peerId index handshake inbound sender =>
      unfold handleEvent DiscoverPeerEvent.network NetworkDiscovery.handleEvent
      dsimp only
      cases ProtocolRole.decode handshake <;> rfl
    | customProtocolClosed peerId index => rfl
    | notification peerId index message => rfl

/-- What an event does to the account of the target. -/
structure Told (event : DiscoverPeerEvent PeerId QueryId) (s s' : PeerDiscovery PeerId QueryId) : Prop where
  same : s'.target = s.target
  reports : s'.targetDhtReports = s.targetDhtReports + (event.report s.target).toList.length
  known : s'.targetKnownAddresses = s.targetKnownAddresses ∪ (event.report s.target).toList.flatten.toFinset
  identified : s'.targetIdentified = (s.targetIdentified || decide (s.target ∈ event.identifiedPeer.toList))
  details : s'.peerDetails.keys = s.peerDetails.keys ∪ event.identifiedPeer.toList.toFinset

/-- What the account of the target is made of. -/
def account (s : PeerDiscovery PeerId QueryId) :
    PeerId × Nat × Finset (LibP2pMultiaddr PeerId) × Bool × Map PeerId Info :=
  (s.target, s.targetDhtReports, s.targetKnownAddresses, s.targetIdentified, s.peerDetails)

variable {s' : PeerDiscovery PeerId QueryId} {event : DiscoverPeerEvent PeerId QueryId}

omit [DecidableEq QueryId] in
theorem told_quiet (unreported : event.report s.target = none) (unidentified : event.identifiedPeer = none)
    (same : s'.account = s.account) : Told event s s' := by
  obtain ⟨target, same⟩ := Prod.mk.inj same
  obtain ⟨reports, same⟩ := Prod.mk.inj same
  obtain ⟨known, same⟩ := Prod.mk.inj same
  obtain ⟨identified, details⟩ := Prod.mk.inj same
  exact {
    same := target
    reports := by rw [reports, unreported]; rfl
    known := by rw [known, unreported]; exact (Finset.union_empty _).symm
    identified := by rw [identified, unidentified]; exact (Bool.or_false _).symm
    details := by rw [details, unidentified]; exact (Finset.union_empty _).symm }

omit [DecidableEq QueryId] in
theorem told_reported {addrs : List (LibP2pMultiaddr PeerId)} (reported : event.report s.target = some addrs)
    (unidentified : event.identifiedPeer = none) (same : s'.account = (noteTargetAddresses addrs s).account) :
    Told event s s' := by
  obtain ⟨target, same⟩ := Prod.mk.inj same
  obtain ⟨reports, same⟩ := Prod.mk.inj same
  obtain ⟨known, same⟩ := Prod.mk.inj same
  obtain ⟨identified, details⟩ := Prod.mk.inj same
  exact {
    same := target
    reports := by rw [reports, reported]; rfl
    known := by rw [known, reported, note_target_addresses]; simp
    identified := by rw [identified, unidentified]; exact (Bool.or_false _).symm
    details := by rw [details, unidentified]; exact (Finset.union_empty _).symm }

omit [DecidableEq QueryId] in
theorem discovered_account (peer : PeerId) (addrs : List (LibP2pMultiaddr PeerId)) (s : PeerDiscovery PeerId QueryId) :
    (discovered peer addrs s).account = (if peer = s.target then noteTargetAddresses addrs s else s).account := by
  have dialed : ∀ (s : PeerDiscovery PeerId QueryId) addr, (forceDial peer s addr).account = s.account := by
    intro s addr
    unfold forceDial
    split <;> rfl
  exact fold_keeps account dialed addrs _

omit [DecidableEq QueryId] in
/-- A peer that surfaces is reported where it is the target. -/
theorem discovered_told {peer : PeerId} {addrs : List (LibP2pMultiaddr PeerId)} {event : DiscoverPeerEvent PeerId QueryId}
    (report : event.report s.target = if peer = s.target then some addrs else none)
    (unidentified : event.identifiedPeer = none) : Told event s (discovered peer addrs s) := by
  have same := discovered_account peer addrs s
  by_cases hunted : peer = s.target
  · rw [if_pos hunted] at report same
    exact told_reported report unidentified same
  · rw [if_neg hunted] at report same
    exact told_quiet report unidentified same

theorem handle_event_told (event : DiscoverPeerEvent PeerId QueryId) : Told event s (handleEvent queryId s event) := by
  cases event with
  | closestPeers id result =>
    have topped : ∀ s : PeerDiscovery PeerId QueryId, (topUpQueries queryId s).account = s.account :=
      top_up_keeps account fun _ => rfl
    by_cases none : (targetAddrs s.target result.peers).isEmpty
    · refine told_quiet (if_pos none) rfl ((topped _).trans ?_)
      exact (congrArg account (if_pos none)).trans rfl
    · refine told_reported (if_neg none) rfl ((topped _).trans ?_)
      exact (congrArg account (if_neg none)).trans rfl
  | routingUpdated peer addresses => exact discovered_told rfl rfl
  | routablePeer peer address => exact discovered_told rfl rfl
  | pendingRoutablePeer peer address => exact discovered_told rfl rfl
  | identified peerId info =>
    exact {
      same := rfl
      reports := rfl
      known := (Finset.union_empty _).symm
      identified := by
        by_cases hunted : peerId = s.target
        · simp [handleEvent, DiscoverPeerEvent.identifiedPeer, hunted]
        · simp [handleEvent, DiscoverPeerEvent.identifiedPeer, hunted, Ne.symm hunted]
      details := by
        show (s.peerDetails.insert peerId info).keys = s.peerDetails.keys ∪ {peerId}
        rw [Finmap.keys_insert, Finset.union_comm]
        rfl }
  | other => exact told_quiet rfl rfl rfl
  | notifications event =>
    refine told_quiet rfl rfl ?_
    cases event with
    | customProtocolOpen peerId index handshake inbound sender =>
      unfold handleEvent
      dsimp only
      cases ProtocolRole.decode handshake <;> rfl
    | customProtocolClosed peerId index => rfl
    | notification peerId index message => rfl

/-- The account of the target says what the events said: how many reported it,
the addresses they reported, whether it was identified, and who was. -/
structure Accounted (target : PeerId) (events : List (DiscoverPeerEvent PeerId QueryId))
    (s : PeerDiscovery PeerId QueryId) : Prop where
  hunted : s.target = target
  reports : s.targetDhtReports = (events.filterMap (·.report target)).length
  known : s.targetKnownAddresses = (events.filterMap (·.report target)).flatten.toFinset
  identified : s.targetIdentified = decide (target ∈ events.filterMap (·.identifiedPeer))
  details : s.peerDetails.keys = (events.filterMap (·.identifiedPeer)).toFinset

omit [DecidableEq QueryId] in
theorem told_accounted (accounted : Accounted target events s) (told : Told event s s') :
    Accounted target (events ++ [event]) s' := by
  have last : ∀ {α : Type} (f : DiscoverPeerEvent PeerId QueryId → Option α),
      (events ++ [event]).filterMap f = events.filterMap f ++ (f event).toList := by
    intro α f
    rw [List.filterMap_append]
    cases told : f event <;> simp [told]
  have hunted := accounted.hunted
  constructor
  · exact told.same.trans hunted
  · rw [told.reports, accounted.reports, last, List.length_append, hunted]
  · rw [told.known, accounted.known, last, List.flatten_append, List.toFinset_append, hunted]
  · rw [told.identified, accounted.identified, last, hunted]
    simp only [List.mem_append, Bool.decide_or]
  · rw [told.details, accounted.details, last, List.toFinset_append]

end Steps

section Runs
variable {PeerId QueryId : Type} [DecidableEq PeerId] [DecidableEq QueryId] {queryId : Nat → QueryId}
  {t : PeerDiscovery PeerId QueryId} {target : PeerId} {turns : List (DiscoverPeerTurn PeerId QueryId)}

/-- Any sequence of turns is a run. -/
theorem hunt_runs (queryId : Nat → QueryId) (target : PeerId) (turns : List (DiscoverPeerTurn PeerId QueryId)) :
    ∃ t, (machine queryId target).replay turns = some t := by
  have anywhere : ∀ s, ∃ t, (machine queryId target).replayFrom s turns = some t := by
    induction turns with
    | nil => exact fun s => ⟨s, rfl⟩
    | cons l turns ih =>
      intro s
      cases l with
      | event event => exact ih (handleEvent queryId s event)
      | resubmit => exact ih (topUpQueries queryId s)
      | log => exact ih s
  exact anywhere _

omit [DecidableEq QueryId] in
/-- What surfaced, over all peers. -/
theorem mem_surfaced (events : List (SwarmEvent PeerId QueryId)) (addr : LibP2pMultiaddr PeerId) :
    (∃ peer, addr ∈ surfacedFor peer events) ↔
      addr ∈ (events.filterMap SwarmEvent.surfaced).flatMap Prod.snd := by
  simp only [surfacedFor, List.mem_flatMap, List.mem_filter, decide_eq_true_eq]
  constructor
  · rintro ⟨peer, entry, ⟨member, _⟩, listed⟩
    exact ⟨entry, member, listed⟩
  · rintro ⟨entry, member, listed⟩
    exact ⟨entry.1, entry, ⟨member, rfl⟩, listed⟩

/-- All along a run the account says what the events said, and the rest is what a
discovery of the network makes of them. The timer tops nothing up. -/
theorem run_hunted (fresh : Function.Injective queryId) (run : (machine queryId target).replay turns = some t) :
    Accounted target (turns.filterMap DiscoverPeerTurn.handled) t ∧
      t.network = NetworkDiscovery.driveEvents queryId
        ((turns.filterMap DiscoverPeerTurn.handled).map DiscoverPeerEvent.network) := by
  refine Machine.history_invariant (I := fun past s => Accounted target (past.filterMap DiscoverPeerTurn.handled) s ∧
    s.network = NetworkDiscovery.driveEvents queryId
      ((past.filterMap DiscoverPeerTurn.handled).map DiscoverPeerEvent.network))
    (fun past s l s' held _ step => ?_) ?_ (Machine.meets_trivial turns) run
  · obtain ⟨accounted, network⟩ := held
    cases l with
    | event event =>
      cases step
      have last : (past ++ [DiscoverPeerTurn.event event]).filterMap DiscoverPeerTurn.handled =
          past.filterMap DiscoverPeerTurn.handled ++ [event] := List.filterMap_append
      rw [last, List.map_append, List.map_singleton, NetworkDiscovery.drive_events_snoc, ← network]
      exact ⟨told_accounted accounted (handle_event_told event), handle_event_network event⟩
    | resubmit =>
      cases step
      have same : (past ++ [DiscoverPeerTurn.resubmit]).filterMap DiscoverPeerTurn.handled =
          past.filterMap DiscoverPeerTurn.handled := List.filterMap_append.trans (List.append_nil _)
      have full : s.queries.card = maxQueries := by
        have count := (NetworkDiscovery.queries_full fresh
          ((past.filterMap DiscoverPeerTurn.handled).map DiscoverPeerEvent.network)).2
        rwa [← network] at count
      have idle : topUpQueries queryId s = s := by
        unfold topUpQueries
        rw [full, Nat.sub_self]
        rfl
      rw [same, idle]
      exact ⟨accounted, network⟩
    | log =>
      cases step
      have same : (past ++ [DiscoverPeerTurn.log]).filterMap DiscoverPeerTurn.handled =
          past.filterMap DiscoverPeerTurn.handled := List.filterMap_append.trans (List.append_nil _)
      rw [same]
      exact ⟨accounted, network⟩
  · have start : (machine queryId target).start = topUpQueries queryId (new target) := rfl
    have drive : NetworkDiscovery.driveEvents queryId ([] : List (SwarmEvent PeerId QueryId)) =
        NetworkDiscovery.topUpQueries queryId .new := List.foldl_nil
    rw [start]
    refine ⟨⟨?_, ?_, ?_, ?_, ?_⟩, (top_up_network (new target)).trans drive.symm⟩
    · exact top_up_keeps PeerDiscovery.target (fun _ => rfl) _
    · exact top_up_keeps targetDhtReports (fun _ => rfl) _
    · exact top_up_keeps targetKnownAddresses (fun _ => rfl) _
    · exact top_up_keeps targetIdentified (fun _ => rfl) _
    · exact top_up_keeps (·.peerDetails.keys) (fun _ => rfl) _

/-- At every boundary the hunt is, but for its target, the discovery of the
network over the events handled, and its summary counts what they said: with all
queries in flight, and each address that surfaced dialed once. -/
theorem hunt_summary (fresh : Function.Injective queryId) (run : (machine queryId target).replay turns = some t) :
    let events := turns.filterMap DiscoverPeerTurn.handled
    let surfaced := (events.map DiscoverPeerEvent.network).filterMap SwarmEvent.surfaced
    t.network = NetworkDiscovery.driveEvents queryId (events.map DiscoverPeerEvent.network) ∧
      t.summary = {
        identifiedTarget := decide (target ∈ events.filterMap (·.identifiedPeer))
        dhtReports := (events.filterMap (·.report target)).length
        addressesKnown := (events.filterMap (·.report target)).flatten.toFinset.card
        peersSeen := (surfaced.map Prod.fst).toFinset.card
        peersIdentified := (events.filterMap (·.identifiedPeer)).toFinset.card
        addressesDialed := (surfaced.flatMap Prod.snd).toFinset.card } ∧
      t.queries.card = maxQueries ∧ t.swarm.dials.Nodup ∧
      t.swarm.dials.toFinset = (surfaced.flatMap Prod.snd).toFinset := by
  intro events surfaced
  obtain ⟨accounted, network⟩ := run_hunted fresh run
  obtain ⟨⟨once, dials⟩, dialed⟩ :=
    @NetworkDiscovery.dialed_history _ _ _ _ queryId (events.map DiscoverPeerEvent.network)
  have seen := fun peer =>
    (@NetworkDiscovery.discovered_history _ _ _ _ queryId (events.map DiscoverPeerEvent.network) peer).1
  have full := (NetworkDiscovery.queries_full fresh (events.map DiscoverPeerEvent.network)).2
  rw [← network] at once dials dialed seen full
  have addresses : t.dialedAddresses = (surfaced.flatMap Prod.snd).toFinset := by
    ext addr
    rw [List.mem_toFinset, ← mem_surfaced]
    exact dialed addr
  have peers : t.discoveredWithAddresses.keys = (surfaced.map Prod.fst).toFinset := by
    ext peer
    rw [Finmap.mem_keys, List.mem_toFinset, List.mem_map]
    refine (seen peer).trans ⟨?_, ?_⟩
    · rintro ⟨addrs, member⟩
      exact ⟨(peer, addrs), member, rfl⟩
    · rintro ⟨⟨_, addrs⟩, member, rfl⟩
      exact ⟨addrs, member⟩
  refine ⟨network, ?_, full, once, ?_⟩
  · unfold summary Finmap.size
    rw [accounted.reports, accounted.known, accounted.identified, accounted.details, addresses, peers]
  · rw [← addresses]
    ext addr
    rw [List.mem_toFinset]
    exact dials addr

/-- The target is reported by a result, surfaces at that address, and answers. -/
def hunted : List (DiscoverPeerTurn Nat Nat) :=
  [.event (.closestPeers 0 (.ok [⟨7, [[.tcp 30333, .p2p 7]]⟩, ⟨8, [[.tcp 1, .p2p 8]]⟩])), .resubmit,
    .event (.routablePeer 7 [.tcp 30333, .p2p 7]), .log, .event (.identified 7 ⟨[]⟩)]

theorem hunted_summary : ∃ t : PeerDiscovery Nat Nat, (machine id 7).replay hunted = some t ∧
    t.summary = ⟨true, 2, 1, 1, 1, 1⟩ := by
  obtain ⟨t, run⟩ := hunt_runs id 7 hunted
  refine ⟨t, run, (hunt_summary Function.injective_id run).2.1.trans ?_⟩
  decide +kernel

end Runs
end PeerDiscovery
end Subp2pExplorer.Network
