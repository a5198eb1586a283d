import Subp2pExplorer.Network.Genesis
import Subp2pExplorer.Types.Multiaddr

/-! The verification of bootnodes. Each is dialed, and what responds to the
identify protocol before the time is up is held against the genesis. The texts
of addresses and peer ids are parsed elsewhere; the outcome of a dial, and what
the network answers, is open. -/
namespace Subp2pExplorer.Network
open Lib Subp2pExplorer.Types

/-- The behaviour events of the identify protocol; all other swarm events are
`other`. -/
inductive IdentifyEvent (PeerId : Type) where
  | received (peerId : PeerId) (info : Info)
  | sent (peerId : PeerId)
  | pushed (peerId : PeerId)
  | error (peerId : PeerId)
  | other

/-- `Bootnodes` with all that its verification uses. -/
structure BootnodesStateMachine (PeerId : Type) extends Bootnodes PeerId where
  bootnodes : Map PeerId (List (LibP2pMultiaddr PeerId))
  pendingPeerResponses : Finset PeerId

/-- The bootnodes in the two lists that are printed, as they are listed. -/
structure Report (PeerId : Type) where
  validBootnodes : List (PeerId × List (LibP2pMultiaddr PeerId))
  invalidBootnodes : List (PeerId × List (LibP2pMultiaddr PeerId))
  deriving DecidableEq

section Verification
variable {PeerId DialError : Type} [DecidableEq PeerId]

namespace BootnodesStateMachine

def new (bootnodes : Map PeerId (List (LibP2pMultiaddr PeerId))) (genesis : Option String) :
    BootnodesStateMachine PeerId where
  genesis := genesis
  identifyData := ∅
  bootnodes := bootnodes
  pendingPeerResponses := bootnodes.keys

/-- The body of the loop: a response is stored, and no longer pending. -/
def handleEvent (s : BootnodesStateMachine PeerId) (event : IdentifyEvent PeerId) : BootnodesStateMachine PeerId :=
  match event with
  | .received peerId info =>
    { s with
      identifyData := s.identifyData.insert peerId info
      pendingPeerResponses := s.pendingPeerResponses.erase peerId }
  | _ => s

/-- The loop over the events there are before the time is up. -/
def driveEvents (s : BootnodesStateMachine PeerId) : List (IdentifyEvent PeerId) → BootnodesStateMachine PeerId
  | [] => s
  | event :: events => if s.pendingPeerResponses = ∅ then s else (s.handleEvent event).driveEvents events

/-- Dial one address after another; the first error ends it. -/
def dialAll (dial : Nat → LibP2pMultiaddr PeerId → Except DialError Unit) :
    Nat → List (LibP2pMultiaddr PeerId) → Except DialError Unit
  | _, [] => .ok ()
  | call, remote :: remotes => do
    dial call remote
    dialAll dial (call + 1) remotes

/-- `verify_bootnodes` of the state. The caller drops its result and goes on
with the state it left. -/
def verifyBootnodes (dial : Nat → LibP2pMultiaddr PeerId → Except DialError Unit) (order : List PeerId)
    (events : List (IdentifyEvent PeerId)) (s : BootnodesStateMachine PeerId) : BootnodesStateMachine PeerId :=
  match dialAll dial 0 ((s.bootnodes.iterate order).flatMap Prod.snd) with
  | .error _ => s
  | .ok () => s.driveEvents events

end BootnodesStateMachine

/-- The part of an address behind its last slash. -/
def lastPart (bootnode : String) : String := .ofList ((bootnode.toList.splitOn '/').getLast?.getD [])

section Command
variable (parseMultiaddr : String → Option (LibP2pMultiaddr PeerId)) (parsePeerId : String → Option PeerId)

/-- A bootnode that was given. One that cannot be parsed is a panic. -/
def parseBootnode (bootnode : String) : Option (PeerId × LibP2pMultiaddr PeerId) := do
  let multiaddress ← parseMultiaddr bootnode
  let peerId ← parsePeerId (lastPart bootnode)
  return (peerId, multiaddress)

def parseBootnodes (bootnodes : List String) : Option (Map PeerId (List (LibP2pMultiaddr PeerId))) :=
  bootnodes.foldlM (fun nodes bootnode =>
    (parseBootnode parseMultiaddr parsePeerId bootnode).map fun (peerId, multiaddress) =>
      nodes.push peerId multiaddress) ∅

/-- `verify_bootnodes`, up to its printing. The map and its clone are walked in
orders of their own. -/
def verifyBootnodes (dial : Nat → LibP2pMultiaddr PeerId → Except DialError Unit) (dialOrder order : List PeerId)
    (events : List (IdentifyEvent PeerId)) (bootnodes : List String) (genesis : Option String) :
    Option (Report PeerId) := do
  let nodes ← parseBootnodes parseMultiaddr parsePeerId bootnodes
  let state := (BootnodesStateMachine.new nodes genesis).verifyBootnodes dial dialOrder events
  return {
    validBootnodes := (nodes.iterate order).filter fun node => state.isPeerValid node.1
    invalidBootnodes := (nodes.iterate order).filter fun node => !state.isPeerValid node.1 }

end Command

/-- The addresses under a heading, which is left out where there are none. -/
def listBootnodes (display : LibP2pMultiaddr PeerId → String) (heading : String)
    (nodes : List (PeerId × List (LibP2pMultiaddr PeerId))) : List String :=
  if nodes.isEmpty then []
  else heading :: (nodes.flatMap fun node => node.2.map fun addr => " " ++ display addr) ++ [""]

/-- The lines printed behind the verification. -/
def Report.lines (display : LibP2pMultiaddr PeerId → String) (report : Report PeerId) : List String :=
  "" :: listBootnodes display "Valid bootnodes:" report.validBootnodes ++
    listBootnodes display "Invalid bootnodes:" report.invalidBootnodes

end Verification

section Verdicts
variable {PeerId DialError : Type} [DecidableEq PeerId] {genesis : Option String}
  {given : List (PeerId × LibP2pMultiaddr PeerId)}

def response (peer : PeerId) : IdentifyEvent PeerId → Option Info
  | .received peerId info => if peerId = peer then some info else none
  | _ => none

/-- The last response of a peer among these events. -/
def lastResponse (peer : PeerId) (events : List (IdentifyEvent PeerId)) : Option Info :=
  (events.filterMap (response peer)).getLast?

/-- The events there are to hear: until all these peers have responded. -/
def available (peers : List PeerId) : List (IdentifyEvent PeerId) → List (IdentifyEvent PeerId) →
    List (IdentifyEvent PeerId)
  | past, [] => past
  | past, event :: events =>
    if ∀ peer ∈ peers, (lastResponse peer past).isSome then past else available peers (past ++ [event]) events

/-- What makes a bootnode valid: it responds, and with a protocol derived from
the genesis hash where one is given. -/
def ValidBootnode (genesis : Option String) (events : List (IdentifyEvent PeerId)) (peer : PeerId) : Prop :=
  ∃ info, lastResponse peer events = some info ∧
    ∀ hash, genesis = some hash → ∃ proto ∈ info.protocols, contains proto hash = true

/-- The addresses a list of bootnodes is printed with. -/
def printed (nodes : List (PeerId × List (LibP2pMultiaddr PeerId))) : List (PeerId × LibP2pMultiaddr PeerId) :=
  nodes.flatMap fun node => node.2.map (node.1, ·)

/-- The addresses that are dialed, in this order of the bootnodes. -/
def dialed (order : List PeerId) (given : List (PeerId × LibP2pMultiaddr PeerId)) : List (LibP2pMultiaddr PeerId) :=
  order.flatMap fun peer => (given.filter (·.1 = peer)).map Prod.snd

/-- The map that the given bootnodes are collected in. -/
def collected (given : List (PeerId × LibP2pMultiaddr PeerId)) : Map PeerId (List (LibP2pMultiaddr PeerId)) :=
  given.foldl (fun m pair => m.push pair.1 pair.2) ∅

theorem collected_keys : (collected given).keys = (given.map Prod.fst).toFinset := by
  rw [collected, Finmap.keys_push_all, Finmap.keys_empty, Finset.empty_union]

/-- The addresses walked in an order of the map. -/
theorem collected_addresses {order : List PeerId} (walks : HashSet.Walks order (given.map Prod.fst).toFinset) :
    ((collected given).iterate order).flatMap Prod.snd = dialed order given := by
  rw [collected, Finmap.iterate_push_all walks, List.flatMap_map]
  rfl

namespace BootnodesStateMachine

/-- The state after it handled some events holds the last response of each
peer, and waits for the bootnodes that have none. -/
theorem handled_tables (bootnodes : Map PeerId (List (LibP2pMultiaddr PeerId)))
    (events : List (IdentifyEvent PeerId)) :
    (∀ peer, (events.foldl handleEvent (new bootnodes genesis)).identifyData.lookup peer = lastResponse peer events) ∧
    (∀ peer, peer ∈ (events.foldl handleEvent (new bootnodes genesis)).pendingPeerResponses ↔
      peer ∈ bootnodes.keys ∧ lastResponse peer events = none) ∧
    (events.foldl handleEvent (new bootnodes genesis)).genesis = genesis := by
  induction events using List.reverseRecOn with
  | nil =>
    refine ⟨fun peer => Finmap.lookup_empty peer, fun peer => ?_, rfl⟩
    exact (and_iff_left rfl).symm
  | append_singleton events event ih =>
    obtain ⟨data, waiting, same⟩ := ih
    rw [List.foldl_append, List.foldl_cons, List.foldl_nil]
    generalize events.foldl handleEvent (new bootnodes genesis) = s at data waiting same ⊢
    have silent : (∀ peer, response peer event = none) → ∀ peer, lastResponse peer (events ++ [event]) =
        lastResponse peer events := by
      intro none peer
      simp [lastResponse, none peer]
    cases event with
    | received peerId info =>
      have last : ∀ peer, lastResponse peer (events ++ [.received peerId info]) =
          if peer = peerId then some info else lastResponse peer events := by
        intro peer
        by_cases here : peer = peerId
        · subst here
          simp [lastResponse, response]
        · simp [lastResponse, response, here, Ne.symm here]
      refine ⟨fun peer => ?_, fun peer => ?_, same⟩
      · rw [last]
        by_cases here : peer = peerId
        · subst here
          rw [if_pos rfl]
          exact Finmap.lookup_insert _
        · rw [if_neg here, ← data peer]
          exact Finmap.lookup_insert_of_ne _ here
      · rw [last]
        show peer ∈ s.pendingPeerResponses.erase peerId ↔ _
        rw [Finset.mem_erase, waiting]
        by_cases here : peer = peerId <;> simp [here]
    | sent _ | pushed _ | error _ | other =>
      have none := silent fun _ => rfl
      refine ⟨fun peer => ?_, fun peer => ?_, same⟩
      · rw [none]
        exact data peer
      · rw [none]
        exact waiting peer

/-- The loop handles the events there are to hear, and no others. -/
theorem drive_available {peers : List PeerId} {bootnodes : Map PeerId (List (LibP2pMultiaddr PeerId))}
    (keys : bootnodes.keys = peers.toFinset) (past events : List (IdentifyEvent PeerId)) :
    (past.foldl handleEvent (new bootnodes genesis)).driveEvents events =
      (available peers past events).foldl handleEvent (new bootnodes genesis) := by
  induction events generalizing past with
  | nil => rfl
  | cons event events ih =>
    have done : (past.foldl handleEvent (new bootnodes genesis)).pendingPeerResponses = ∅ ↔
        ∀ peer ∈ peers, (lastResponse peer past).isSome := by
      rw [Finset.eq_empty_iff_forall_notMem]
      refine forall_congr' fun peer => ?_
      rw [(handled_tables bootnodes past).2.1, keys, List.mem_toFinset, not_and, ← ne_eq, Option.ne_none_iff_isSome]
    rw [driveEvents, available]
    by_cases all : ∀ peer ∈ peers, (lastResponse peer past).isSome
    · rw [if_pos (done.mpr all), if_pos all]
    · rw [if_neg (mt done.mp all), if_neg all, ← ih, List.foldl_append]
      rfl

theorem is_peer_valid_iff (bootnodes : Map PeerId (List (LibP2pMultiaddr PeerId)))
    (events : List (IdentifyEvent PeerId)) (peer : PeerId) :
    (events.foldl handleEvent (new bootnodes genesis)).isPeerValid peer = true ↔
      ValidBootnode genesis events peer := by
  obtain ⟨data, -, same⟩ := @handled_tables _ _ genesis bootnodes events
  unfold Bootnodes.isPeerValid ValidBootnode
  rw [data, same]
  cases lastResponse peer events with
  | none => simp
  | some info => cases genesis <;> simp

omit [DecidableEq PeerId] in
theorem dial_all_ok {dial : Nat → LibP2pMultiaddr PeerId → Except DialError Unit} {call : Nat}
    {remotes : List (LibP2pMultiaddr PeerId)} :
    dialAll dial call remotes = .ok () ↔ ∀ i addr, remotes[i]? = some addr → dial (call + i) addr = .ok () := by
  induction remotes generalizing call with
  | nil => exact iff_of_true rfl nofun
  | cons remote remotes ih =>
    unfold dialAll
    cases first : dial call remote with
    | error e =>
      refine iff_of_false nofun fun each => ?_
      cases first.symm.trans (each 0 remote rfl)
    | ok u =>
      refine ih.trans ⟨fun each i addr at_i => ?_, fun each i addr at_i => ?_⟩
      · cases i with
        | zero =>
          cases at_i
          exact first
        | succ i =>
          rw [show call + (i + 1) = call + 1 + i by omega]
          exact each i addr at_i
      · rw [show call + 1 + i = call + (i + 1) by omega]
        exact each (i + 1) addr at_i

/-- Where every dial succeeds, all that is available is handled. -/
theorem verify_dialed {dial : Nat → LibP2pMultiaddr PeerId → Except DialError Unit} {order : List PeerId}
    (walks : HashSet.Walks order (given.map Prod.fst).toFinset)
    (succeed : ∀ call addr, (dialed order given)[call]? = some addr → dial call addr = .ok ())
    (events : List (IdentifyEvent PeerId)) :
    (new (collected given) genesis).verifyBootnodes dial order events =
      (available (given.map Prod.fst) [] events).foldl handleEvent (new (collected given) genesis) := by
  have ok : dialAll dial 0 (dialed order given) = .ok () := by
    apply dial_all_ok.mpr
    simpa using succeed
  have walk : ((new (collected given) genesis).bootnodes.iterate order).flatMap Prod.snd = dialed order given :=
    collected_addresses walks
  unfold verifyBootnodes
  rw [walk, ok]
  exact drive_available collected_keys [] events

end BootnodesStateMachine

theorem parse_bootnodes_given {parseMultiaddr : String → Option (LibP2pMultiaddr PeerId)}
    {parsePeerId : String → Option PeerId} {bootnodes : List String}
    (reads : bootnodes.mapM (parseBootnode parseMultiaddr parsePeerId) = some given) :
    parseBootnodes parseMultiaddr parsePeerId bootnodes = some (collected given) := by
  unfold parseBootnodes collected
  generalize (∅ : Map PeerId (List (LibP2pMultiaddr PeerId))) = nodes
  induction bootnodes generalizing given nodes with
  | nil =>
    cases reads
    rfl
  | cons bootnode bootnodes ih =>
    rw [List.mapM_cons] at reads
    obtain ⟨pair, first, reads⟩ := Option.bind_eq_some_iff.mp reads
    obtain ⟨rest, others, same⟩ := Option.bind_eq_some_iff.mp reads
    cases same
    rw [List.foldlM_cons, first]
    exact ih others _

omit [DecidableEq PeerId] in
/-- The lines under a heading are those of the addresses printed there. -/
theorem list_bootnodes_printed (display : LibP2pMultiaddr PeerId → String) (heading : String)
    (nodes : List (PeerId × List (LibP2pMultiaddr PeerId))) :
    listBootnodes display heading nodes =
      if nodes.isEmpty then [] else heading :: (printed nodes).map (fun entry => " " ++ display entry.2) ++ [""] := by
  simp [listBootnodes, printed, List.map_flatMap, Function.comp_def]

def firstPeer : String := "12D3KooWNwWNRrPrTk4qMah1YszudMjxNw2qag7Kunhw3Ghs9ea5"

def secondPeer : String := "12D3KooWKvdDyRKqUfSAaUCbYiLwKY8uK3wDWpCuy2FiDLbkPTDJ"

def secondAddress : LibP2pMultiaddr String := [.ip4 #v[5, 6, 7, 8], .tcp 30333, .p2p secondPeer]

/-- Two bootnodes as they are given, and as they are parsed. -/
def twoBootnodes : List String :=
  ["/ip4/1.2.3.4/tcp/30333/p2p/" ++ firstPeer, "/ip4/5.6.7.8/tcp/30333/p2p/" ++ secondPeer]

def twoGiven : List (String × LibP2pMultiaddr String) :=
  [(firstPeer, [.ip4 #v[1, 2, 3, 4], .tcp 30333, .p2p firstPeer]), (secondPeer, secondAddress)]

def parseTwo (text : String) : Option (LibP2pMultiaddr String) :=
  ((twoBootnodes.zip (twoGiven.map Prod.snd)).find? fun pair => pair.1 = text).map Prod.snd

end Verdicts
end Subp2pExplorer.Network
