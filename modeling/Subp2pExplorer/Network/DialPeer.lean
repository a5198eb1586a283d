import Mathlib.Data.List.Perm.Subperm
import Subp2pExplorer.Network.Swarms

/-! The command that dials addresses and prints who responds, and the command
that verifies bootnodes. One counts the responses, the other keeps the peers it
still waits for: they agree where no peer responds twice. -/
namespace Subp2pExplorer.Network
open Lib Subp2pExplorer.Types

/-- What `dial_peer` has dialed and been told, its counter, and whether its time
was up. -/
structure DialedPeers (PeerId : Type) where
  dialing : List (LibP2pMultiaddr PeerId)
  received : Nat
  told : List (PeerId × Info)
  timedOut : Bool

section Dialing
variable {PeerId ParseError DialError : Type}

namespace DialedPeers

/-- A response is printed and counted. -/
def tell (s : DialedPeers PeerId) (peerId : PeerId) (info : Info) : DialedPeers PeerId :=
  { s with told := s.told ++ [(peerId, info)], received := s.received + 1 }

/-- The loop over the events there are before the time is up. It is left with a
response only. -/
def driveEvents (numAddresses : Nat) (s : DialedPeers PeerId) : List (IdentifyEvent PeerId) → DialedPeers PeerId
  | [] => { s with timedOut := true }
  | .received peerId info :: events =>
    if numAddresses ≤ (s.tell peerId info).received then s.tell peerId info
    else (s.tell peerId info).driveEvents numAddresses events
  | _ :: events => s.driveEvents numAddresses events

end DialedPeers

variable (parseMultiaddr : String → Except ParseError (LibP2pMultiaddr PeerId))
  (dial : Nat → LibP2pMultiaddr PeerId → Except DialError Unit)

/-- Each address is parsed and dialed; the first error ends it. -/
def dialAddresses : Nat → List String → Except (ParseError ⊕ DialError) (List (LibP2pMultiaddr PeerId))
  | _, [] => .ok []
  | call, addr :: addresses => do
    let multiaddr ← (parseMultiaddr addr).mapError .inl
    (dial call multiaddr).mapError .inr
    return multiaddr :: (← dialAddresses (call + 1) addresses)

/-- `dial_peer`, with the events of its swarm. -/
def dialPeer (addresses : List String) (events : List (IdentifyEvent PeerId)) :
    Except (ParseError ⊕ DialError) (DialedPeers PeerId) := do
  let dialing ← dialAddresses parseMultiaddr dial 0 addresses
  return DialedPeers.driveEvents addresses.length ⟨dialing, 0, [], false⟩ events

end Dialing

section Responses
variable {PeerId : Type} [DecidableEq PeerId] {peers : List PeerId}
  {past heard rest events : List (IdentifyEvent PeerId)}

/-- The responses among some events, in their order. -/
def responses (events : List (IdentifyEvent PeerId)) : List (PeerId × Info) :=
  events.filterMap fun
    | .received peerId info => some (peerId, info)
    | _ => none

/-- Every response is of a peer that was dialed. -/
def FromDialed (peers : List PeerId) (events : List (IdentifyEvent PeerId)) : Prop :=
  ∀ peerId info, .received peerId info ∈ events → peerId ∈ peers

omit [DecidableEq PeerId] in
theorem responses_append (past events : List (IdentifyEvent PeerId)) :
    responses (past ++ events) = responses past ++ responses events := List.filterMap_append

omit [DecidableEq PeerId] in
theorem responses_cons (event : IdentifyEvent PeerId) (events : List (IdentifyEvent PeerId)) :
    responses (event :: events) = responses [event] ++ responses events := responses_append [event] events

omit [DecidableEq PeerId] in
theorem responses_from_dialed (own : FromDialed peers events) :
    (responses events).map Prod.fst ⊆ peers := by
  intro peer member
  obtain ⟨⟨peerId, info⟩, told, rfl⟩ := List.mem_map.mp member
  obtain ⟨event, occurs, same⟩ := List.mem_filterMap.mp told
  cases event with
  | received peerId' info' =>
    cases same
    exact own _ _ occurs
  | sent _ | pushed _ | error _ | other => cases same

/-- A peer has a last response exactly if it is among those that responded. -/
theorem responded_iff {peer : PeerId} :
    (lastResponse peer events).isSome ↔ peer ∈ (responses events).map Prod.fst := by
  have each : events.filterMap (response peer) = ((responses events).filter (·.1 = peer)).map Prod.snd := by
    induction events with
    | nil => rfl
    | cons event events ih =>
      cases event with
      | received peerId info =>
        by_cases same : peerId = peer <;> simp [responses, response, same] at ih ⊢ <;> exact ih
      | sent _ | pushed _ | error _ | other => exact ih
  rw [lastResponse, each, List.getLast?_isSome, ne_eq, List.map_eq_nil_iff, List.filter_eq_nil_iff]
  simp

/-- What comes while too few have responded is heard. -/
theorem available_append
    (few : ∀ front event back, heard = front ++ event :: back →
      ¬ ∀ peer ∈ peers, (lastResponse peer (past ++ front)).isSome) :
    available peers past (heard ++ rest) = available peers (past ++ heard) rest := by
  induction heard generalizing past with
  | nil => rw [List.append_nil, List.nil_append]
  | cons event heard ih =>
    have now := few [] event heard rfl
    rw [List.append_nil] at now
    have later := @ih (past ++ [event]) fun front event' back split => by
      rw [List.append_assoc]
      exact few (event :: front) event' back (congrArg (event :: ·) split)
    rw [List.cons_append, available, if_neg now, later, List.append_assoc, List.singleton_append]

theorem available_extends (past events : List (IdentifyEvent PeerId)) : past <+: available peers past events := by
  induction events generalizing past with
  | nil => exact List.prefix_refl _
  | cons event events ih =>
    rw [available]
    split
    · exact List.prefix_refl _
    · exact (List.prefix_append past [event]).trans (ih _)

/-- Once all have responded it hears no more. -/
theorem available_stops (all : ∀ peer ∈ peers, (lastResponse peer past).isSome) :
    available peers past events = past := by
  cases events with
  | nil => rfl
  | cons event events => rw [available, if_pos all]

end Responses

section Loop
variable {PeerId : Type} {numAddresses : Nat} {s : DialedPeers PeerId}

/-- What the loop heard of the events, with the bounds of its counter. -/
structure Heard (numAddresses : Nat) (s s' : DialedPeers PeerId) (heard rest : List (IdentifyEvent PeerId)) : Prop where
  dialing : s'.dialing = s.dialing
  told : s'.told = s.told ++ responses heard
  received : s'.received = s.received + (responses heard).length
  few : ∀ front event back, heard = front ++ event :: back → s.received + (responses front).length < numAddresses
  ended : s'.timedOut = false → s'.received = numAddresses
  timedOut : s'.timedOut = true → s'.received < numAddresses ∧ rest = []

/-- Another event that the loop goes on after. -/
theorem heard_cons {event : IdentifyEvent PeerId} {s₁ s' : DialedPeers PeerId}
    {heard rest : List (IdentifyEvent PeerId)} (later : Heard numAddresses s₁ s' heard rest)
    (waiting : s.received < numAddresses) (dialing : s₁.dialing = s.dialing)
    (told : s₁.told = s.told ++ responses [event])
    (received : s₁.received = s.received + (responses [event]).length) :
    Heard numAddresses s s' (event :: heard) rest where
  dialing := later.dialing.trans dialing
  told := by rw [later.told, told, List.append_assoc, responses_cons event heard]
  received := by rw [later.received, received, responses_cons event heard, List.length_append, Nat.add_assoc]
  few := by
    intro front event' back split
    cases front with
    | nil => exact waiting
    | cons first front =>
      obtain ⟨same, tails⟩ := List.cons.inj split
      subst same
      have bound := later.few front event' back tails
      rw [responses_cons event front, List.length_append, ← Nat.add_assoc, ← received]
      exact bound
  ended := later.ended
  timedOut := later.timedOut

theorem drive_heard (waiting : s.received < numAddresses) (events : List (IdentifyEvent PeerId))
    (running : s.timedOut = false) :
    ∃ heard rest, events = heard ++ rest ∧ Heard numAddresses s (s.driveEvents numAddresses events) heard rest := by
  induction events generalizing s with
  | nil =>
    refine ⟨[], [], rfl, rfl, (List.append_nil _).symm, rfl, fun front event back split => ?_, ?_, ?_⟩
    · cases front <;> cases split
    · intro ended
      cases ended
    · exact fun _ => ⟨waiting, rfl⟩
  | cons event events ih =>
    cases event with
    | received peerId info =>
      rw [DialedPeers.driveEvents]
      by_cases enough : numAddresses ≤ (s.tell peerId info).received
      · rw [if_pos enough]
        refine ⟨[.received peerId info], events, rfl, rfl, rfl, rfl, fun front event back split => ?_, fun _ => ?_, ?_⟩
        · cases front with
          | nil => exact waiting
          | cons first front => cases front <;> cases split
        · exact Nat.le_antisymm waiting enough
        · intro late
          cases running.symm.trans late
      · rw [if_neg enough]
        obtain ⟨heard, rest, rfl, later⟩ := ih (Nat.lt_of_not_le enough) running
        exact ⟨_ :: heard, rest, rfl, heard_cons later waiting rfl rfl rfl⟩
    | sent _ | pushed _ | error _ | other =>
      obtain ⟨heard, rest, rfl, later⟩ := ih waiting running
      exact ⟨_ :: heard, rest, rfl, heard_cons later waiting rfl (List.append_nil _).symm rfl⟩

end Loop

section Agreement
variable {PeerId ParseError DialError : Type} [DecidableEq PeerId] {given : List (PeerId × LibP2pMultiaddr PeerId)}
  {peers : List PeerId} {heard rest events : List (IdentifyEvent PeerId)} {outcome : DialedPeers PeerId}

/-- Fewer responses than peers leave one that has not responded. -/
theorem few_responses (distinct : peers.Nodup) (few : (responses heard).length < peers.length) :
    ¬ ∀ peer ∈ peers, (lastResponse peer heard).isSome := by
  intro all
  have within : peers ⊆ (responses heard).map Prod.fst := fun peer member => responded_iff.mp (all peer member)
  have least := (List.subperm_of_subset distinct within).length_le
  rw [List.length_map] at least
  exact absurd few (Nat.not_lt.mpr least)

omit [DecidableEq PeerId] in
/-- As many responses as peers are one of each exactly if no peer has two. -/
theorem enough_responses (distinct : peers.Nodup) (own : (responses heard).map Prod.fst ⊆ peers)
    (enough : (responses heard).length = peers.length) :
    (∀ peer ∈ peers, peer ∈ (responses heard).map Prod.fst) ↔ ((responses heard).map Prod.fst).Nodup := by
  have size : ((responses heard).map Prod.fst).length = peers.length := (List.length_map _).trans enough
  constructor
  · intro all
    have same := (List.subperm_of_subset distinct all).perm_of_length_le size.le
    exact same.nodup_iff.mp distinct
  · intro single peer member
    have same := (List.subperm_of_subset single own).perm_of_length_le size.ge
    exact same.mem_iff.mpr member

/-- The outcome of one command against the report of the other. -/
structure DialAgrees (peers : List PeerId) (events : List (IdentifyEvent PeerId)) (outcome : DialedPeers PeerId)
    (report : Report PeerId) : Prop where
  /-- What is told is what the verification hears first. -/
  heard : outcome.told <+: responses (available peers [] events)
  counted : outcome.received = outcome.told.length
  complete : outcome.timedOut = false →
    ((∀ peer ∈ peers, peer ∈ outcome.told.map Prod.fst) ↔ (outcome.told.map Prod.fst).Nodup)
  inTime : outcome.timedOut = false → (outcome.told.map Prod.fst).Nodup → report.invalidBootnodes = []
  late : outcome.timedOut = true → report.invalidBootnodes ≠ []

/-- The verification goes on from what the other command heard. -/
theorem available_heard {dialing : List (LibP2pMultiaddr PeerId)} (distinct : peers.Nodup)
    (drove : Heard peers.length ⟨dialing, 0, [], false⟩ outcome heard rest) :
    available peers [] (heard ++ rest) = available peers heard rest := by
  refine available_append fun front event back split => ?_
  have bound := drove.few front event back split
  rw [Nat.zero_add] at bound
  exact few_responses distinct bound

theorem heard_agrees {dialing : List (LibP2pMultiaddr PeerId)} {report : Report PeerId} (distinct : peers.Nodup)
    (own : FromDialed peers (heard ++ rest)) (drove : Heard peers.length ⟨dialing, 0, [], false⟩ outcome heard rest)
    (valid : report.invalidBootnodes = [] ↔
      ∀ peer ∈ peers, (lastResponse peer (available peers [] (heard ++ rest))).isSome) :
    DialAgrees peers (heard ++ rest) outcome report := by
  have told : outcome.told = responses heard := drove.told
  have received : outcome.received = (responses heard).length := drove.received.trans (Nat.zero_add _)
  have within : (responses heard).map Prod.fst ⊆ peers :=
    responses_from_dialed fun peerId info member => own peerId info (List.mem_append_left _ member)
  have exactly_once : outcome.timedOut = false →
      ((∀ peer ∈ peers, peer ∈ (responses heard).map Prod.fst) ↔ ((responses heard).map Prod.fst).Nodup) :=
    fun ended => enough_responses distinct within (received.symm.trans (drove.ended ended))
  rw [available_heard distinct drove] at valid
  constructor
  case heard =>
    obtain ⟨later, whole⟩ := @available_extends _ _ peers heard rest
    rw [told, available_heard distinct drove, ← whole, responses_append]
    exact List.prefix_append _ _
  case counted => rw [received, told]
  case complete =>
    rw [told]
    exact exactly_once
  case inTime =>
    intro ended single
    rw [told] at single
    have all : ∀ peer ∈ peers, (lastResponse peer heard).isSome :=
      fun peer member => responded_iff.mpr ((exactly_once ended).mpr single peer member)
    rw [valid, available_stops all]
    exact all
  case late =>
    intro late none
    obtain ⟨few, ended⟩ := drove.timedOut late
    rw [received] at few
    subst ended
    exact few_responses distinct few (valid.mp none)

omit [DecidableEq PeerId] in
theorem dial_addresses_given {parse : String → Except ParseError (LibP2pMultiaddr PeerId)}
    {parsePeerId : String → Option PeerId} {dial : Nat → LibP2pMultiaddr PeerId → Except DialError Unit}
    {bootnodes : List String}
    (reads : bootnodes.mapM (parseBootnode (fun text => (parse text).toOption) parsePeerId) = some given)
    (succeed : ∀ call, ∀ addr ∈ given.map Prod.snd, dial call addr = .ok ()) (call : Nat) :
    dialAddresses parse dial call bootnodes = .ok (given.map Prod.snd) ∧ bootnodes.length = given.length := by
  induction bootnodes generalizing given call with
  | nil =>
    cases reads
    exact ⟨rfl, rfl⟩
  | cons bootnode bootnodes ih =>
    rw [List.mapM_cons] at reads
    obtain ⟨pair, first, reads⟩ := Option.bind_eq_some_iff.mp reads
    obtain ⟨others, rest, same⟩ := Option.bind_eq_some_iff.mp reads
    cases same
    obtain ⟨multiaddr, parsed, first⟩ := Option.bind_eq_some_iff.mp first
    obtain ⟨peerId, _, same⟩ := Option.bind_eq_some_iff.mp first
    cases same
    have read : parse bootnode = .ok multiaddr := by
      dsimp only at parsed
      cases result : parse bootnode with
      | error e =>
        rw [result] at parsed
        cases parsed
      | ok addr =>
        rw [result] at parsed
        exact congrArg Except.ok (Option.some.inj parsed)
    have others_succeed : ∀ call, ∀ addr ∈ others.map Prod.snd, dial call addr = .ok () :=
      fun call addr member => succeed call addr (List.mem_cons_of_mem _ member)
    obtain ⟨dialed, size⟩ := ih rest others_succeed (call + 1)
    have dialsFirst := succeed call multiaddr List.mem_cons_self
    refine ⟨?_, congrArg Nat.succ size⟩
    unfold dialAddresses
    rw [read]
    show (dial call multiaddr).mapError Sum.inr >>= _ = _
    rw [dialsFirst]
    show dialAddresses parse dial (call + 1) bootnodes >>= _ = _
    rw [dialed]
    rfl

/-- A report without a genesis has no invalid bootnode exactly if all responded. -/
theorem no_invalid_iff {order : List PeerId} (walks : HashSet.Walks order (given.map Prod.fst).toFinset)
    (events : List (IdentifyEvent PeerId)) :
    (((collected given).iterate order).filter fun node =>
      !(events.foldl BootnodesStateMachine.handleEvent (.new (collected given) none)).isPeerValid node.1) = [] ↔
      ∀ peer ∈ given.map Prod.fst, (lastResponse peer events).isSome := by
  have each : ∀ peer, (events.foldl BootnodesStateMachine.handleEvent (.new (collected given) none)).isPeerValid peer =
      true ↔ (lastResponse peer events).isSome := by
    intro peer
    rw [BootnodesStateMachine.is_peer_valid_iff, ValidBootnode, Option.isSome_iff_exists]
    exact exists_congr fun info => and_iff_left fun hash none => nomatch none
  rw [collected, Finmap.iterate_push_all walks, List.filter_eq_nil_iff, ← collected]
  rw [List.forall_mem_map]
  simp only [Bool.not_eq_true, Bool.not_eq_false', each]
  exact forall_congr' fun peer => by rw [walks.exact, List.mem_toFinset]

/-- For peers that are dialed at one address each, and for all that comes from
them: what is told is heard by the verification too. A loop that is left in time
has heard every peer exactly if none responded twice, and then every bootnode is
found valid. One that is not leaves an invalid bootnode. -/
theorem dial_peer_verifies {parse : String → Except ParseError (LibP2pMultiaddr PeerId)}
    {parsePeerId : String → Option PeerId} {dial : Nat → LibP2pMultiaddr PeerId → Except DialError Unit}
    {bootnodes : List String} {dialOrder order : List PeerId}
    (reads : bootnodes.mapM (parseBootnode (fun text => (parse text).toOption) parsePeerId) = some given)
    (dials : HashSet.Walks dialOrder (given.map Prod.fst).toFinset)
    (walks : HashSet.Walks order (given.map Prod.fst).toFinset) (distinct : (given.map Prod.fst).Nodup)
    (some_given : given ≠ []) (succeed : ∀ call, ∀ addr ∈ given.map Prod.snd, dial call addr = .ok ())
    (own : FromDialed (given.map Prod.fst) events) :
    ∃ outcome report, dialPeer parse dial bootnodes events = .ok outcome ∧
      verifyBootnodes (fun text => (parse text).toOption) parsePeerId dial dialOrder order events bootnodes none =
        some report ∧
      outcome.dialing = given.map Prod.snd ∧ DialAgrees (given.map Prod.fst) events outcome report := by
  obtain ⟨dialedAll, size⟩ := dial_addresses_given reads succeed 0
  have waiting : 0 < (given.map Prod.fst).length := by
    rw [List.length_map]
    exact List.length_pos_iff.mpr some_given
  obtain ⟨heard, rest, whole, drove⟩ :=
    @drive_heard _ _ ⟨given.map Prod.snd, 0, [], false⟩ waiting events rfl
  have told : dialPeer parse dial bootnodes events =
      .ok (.driveEvents (given.map Prod.fst).length ⟨given.map Prod.snd, 0, [], false⟩ events) := by
    rw [dialPeer, dialedAll, size, List.length_map]
    rfl
  have reported : ∃ report, verifyBootnodes (fun text => (parse text).toOption) parsePeerId dial dialOrder order events
      bootnodes none = some report ∧ (report.invalidBootnodes = [] ↔
        ∀ peer ∈ given.map Prod.fst, (lastResponse peer (available (given.map Prod.fst) [] events)).isSome) := by
    have dialsAll : ∀ call addr, (dialed dialOrder given)[call]? = some addr → dial call addr = .ok () := by
      intro call addr occurs
      obtain ⟨peer, _, own⟩ := List.mem_flatMap.mp (List.mem_of_getElem? occurs)
      obtain ⟨pair, listed, same⟩ := List.mem_map.mp own
      exact succeed call addr (List.mem_map.mpr ⟨pair, (List.mem_filter.mp listed).1, same⟩)
    unfold verifyBootnodes
    rw [parse_bootnodes_given reads]
    refine ⟨_, rfl, ?_⟩
    dsimp only
    rw [BootnodesStateMachine.verify_dialed dials dialsAll events]
    exact no_invalid_iff walks _
  obtain ⟨report, verified, valid⟩ := reported
  subst whole
  exact ⟨_, report, told, verified, drove.dialing, heard_agrees distinct own drove valid⟩

/-- Both bootnodes respond. -/
def bothRespond : List (IdentifyEvent String) :=
  [.other, .received secondPeer ⟨["/00/kad"]⟩, .received firstPeer ⟨["/00/kad"]⟩, .other]

def parseTwoTexts (text : String) : Except String (LibP2pMultiaddr String) :=
  match parseTwo text with
  | some multiaddr => .ok multiaddr
  | none => .error "InvalidMultiaddr"

theorem both_told_and_verified : ∃ outcome report,
    dialPeer parseTwoTexts (fun _ _ => (.ok () : Except String Unit)) twoBootnodes bothRespond = .ok outcome ∧
    verifyBootnodes (fun text => (parseTwoTexts text).toOption) some (fun _ _ => (.ok () : Except String Unit))
      [secondPeer, firstPeer] [firstPeer, secondPeer] bothRespond twoBootnodes none = some report ∧
    outcome.dialing = twoGiven.map Prod.snd ∧ DialAgrees [firstPeer, secondPeer] bothRespond outcome report := by
  have reads : twoBootnodes.mapM (parseBootnode (fun text => (parseTwoTexts text).toOption) some) = some twoGiven := by
    decide +kernel
  have dials : HashSet.Walks [secondPeer, firstPeer] (twoGiven.map Prod.fst).toFinset :=
    ⟨by decide, fun peer => by simp [twoGiven, or_comm]⟩
  have walks : HashSet.Walks [firstPeer, secondPeer] (twoGiven.map Prod.fst).toFinset :=
    ⟨by decide, fun peer => by simp [twoGiven]⟩
  have own : FromDialed (twoGiven.map Prod.fst) bothRespond := by
    intro peerId info occurs
    simp only [bothRespond, List.mem_cons, IdentifyEvent.received.injEq, reduceCtorEq, List.not_mem_nil, false_or,
      or_false] at occurs
    rcases occurs with ⟨rfl, _⟩ | ⟨rfl, _⟩ <;> simp [twoGiven]
  exact dial_peer_verifies reads dials walks (by decide) (by decide) (fun _ _ _ => rfl) own

end Agreement

section Options

/-- An entry of a chain spec in a file. One that is no text is an error, where
elsewhere it is left out. -/
def specBootnode (node : Json) : Except String String :=
  match node.asStr with
  | some text => .ok text
  | none => .error "Invalid `bootNodes` format, expected string"

def specBootnodes (spec : Json) : Except String (List String) :=
  match spec.get "bootNodes" with
  | none => .error "Missing `bootNodes`"
  | some nodes =>
    match nodes.asArray with
    | none => .error "Invalid `bootNodes` format, expected array"
    | some nodes => nodes.mapM specBootnode

/-- The options of the command, with what the chain spec file reads as. -/
structure BootnodesOpts where
  bootnodes : List String
  genesis : Option String
  chainSpec : Option (Except String Json)

/-- `BootnodesOpts::verify_bootnodes`, with the verification it calls. -/
def BootnodesOpts.verifyBootnodes {Outcome : Type} (verify : List String → Option String → Outcome)
    (opts : BootnodesOpts) : Except String Outcome :=
  match opts.chainSpec with
  | some file =>
    if opts.bootnodes ≠ [] then .error "`--bootnodes` is incompatible with `--chain-spec`"
    else do return verify (← specBootnodes (← file)) opts.genesis
  | none => .ok (verify opts.bootnodes opts.genesis)

theorem spec_entries_iff {nodes : List Json} {texts : List String} :
    nodes.mapM specBootnode = .ok texts ↔
      nodes.filterMap Json.asStr = texts ∧ ∀ node ∈ nodes, node.asStr.isSome := by
  induction nodes generalizing texts with
  | nil =>
    rw [List.mapM_nil, List.filterMap_nil]
    exact ⟨fun read => ⟨Except.ok.inj read, fun _ member => nomatch member⟩, fun read => congrArg Except.ok read.1⟩
  | cons node nodes ih =>
    rw [List.mapM_cons, List.filterMap_cons, List.forall_mem_cons]
    cases text : node.asStr with
    | none =>
      have refused : specBootnode node = .error "Invalid `bootNodes` format, expected string" := by
        rw [specBootnode, text]
      rw [refused]
      refine ⟨fun read => ?_, fun read => ?_⟩
      · cases read
      · cases read.2.1
    | some first =>
      have taken : specBootnode node = .ok first := by rw [specBootnode, text]
      rw [taken]
      cases others : nodes.mapM specBootnode with
      | error e =>
        refine ⟨fun read => ?_, fun read => ?_⟩
        · cases read
        · cases others.symm.trans (ih.mpr ⟨rfl, read.2.2⟩)
      | ok rest =>
        obtain ⟨same, all⟩ := ih.mp others
        rw [same]
        exact ⟨fun read => ⟨Except.ok.inj read, rfl, all⟩, fun read => congrArg Except.ok read.1⟩

/-- A chain spec is accepted exactly if all its entries are texts, and then read
as by the other commands. -/
theorem spec_bootnodes_iff {spec : Json} {texts : List String} :
    specBootnodes spec = .ok texts ↔ fetchBootnodesFromChainspec (.ok spec) = .ok texts ∧
      ∀ nodes, (spec.get "bootNodes").bind Json.asArray = some nodes → ∀ node ∈ nodes, node.asStr.isSome := by
  have whole : fetchBootnodesFromChainspec (.ok spec) =
      bootNodes "Published chainspec missing `bootNodes` field" spec := rfl
  rw [whole, specBootnodes, bootNodes]
  cases spec.get "bootNodes" with
  | none => simp
  | some entry =>
    cases array : entry.asArray with
    | none => simp [array]
    | some nodes =>
      dsimp only
      rw [Option.bind_some, array]
      dsimp only
      rw [spec_entries_iff]
      simp

/-- Where a chain spec is verified, giving its bootnodes instead is the same. -/
theorem chain_spec_verified {Outcome : Type} (verify : List String → Option String → Outcome) {spec : Json}
    {genesis : Option String} {outcome : Outcome}
    (verified : BootnodesOpts.verifyBootnodes verify ⟨[], genesis, some (.ok spec)⟩ = .ok outcome) :
    ∃ texts, fetchBootnodesFromChainspec (.ok spec) = .ok texts ∧
      BootnodesOpts.verifyBootnodes verify ⟨texts, genesis, none⟩ = .ok outcome := by
  have given : (specBootnodes spec).map (verify · genesis) = .ok outcome := verified
  cases read : specBootnodes spec with
  | error e =>
    rw [read] at given
    cases given
  | ok texts =>
    rw [read] at given
    exact ⟨texts, (spec_bootnodes_iff.mp read).1, given⟩

end Options
end Subp2pExplorer.Network
