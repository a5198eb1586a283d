import Mathlib.Data.Rat.Floor
import Subp2pExplorer.Lib.Maps
import Subp2pExplorer.Lib.Runs
import Subp2pExplorer.Authorities.Record

/-! The discovery loop of the authorities command. One event of the swarm or
one resubmit tick is a step, and a boundary between handled events is a state
between two steps. Kademlia is the counter its query ids come from and the set
of its unfinished queries. Timers, log lines and the routing table are left out. -/
namespace Subp2pExplorer.Authorities
open Lib Subp2pExplorer.Types

/-- The maximum number of Kademlia `get-records` queried a time. -/
def maxQueries : Nat := 128

/-- `MAX_DISCOVERY_QUERIES`, not correlated with `maxQueries`. -/
def maxDiscoveryQueries : Nat := 32

/-- The key of a record on the network. -/
structure KademliaKey where
  bytes : Bytes
  deriving DecidableEq

/-- What the identify protocol tells of a peer. -/
structure Info where
  agentVersion : String
  deriving DecidableEq

/-- Outcome of dialing a single address. -/
inductive DialOutcome where
  | success
  | failed (reason : String)

def DialOutcome.isSuccess : DialOutcome → Bool
  | .success => true
  | .failed _ => false

def DialOutcome.isFailed : DialOutcome → Bool
  | .success => false
  | .failed _ => true

/-- The peer details extracted from the DHT. -/
structure PeerDetails (PeerId : Type) where
  authorityId : PublicKey
  addresses : Finset (LibP2pMultiaddr PeerId)

/-- An error as its display and its debug text. -/
structure ErrorText where
  display : String
  debug : String

def ErrorText.message (error : ErrorText) : String :=
  if error.display.isEmpty then error.debug else error.display

/-- A query as it was issued: for whom, what was still wanted and what was
tracked just before. -/
structure Issue where
  authority : PublicKey
  remaining : Finset PublicKey
  tracked : Multiset PublicKey

/-- The network behavior as the loop drives it: queries started, `get-record`
queries without their last event, addresses dialed in order. -/
structure Swarm (PeerId QueryId : Type) where
  started : Nat
  active : Finset QueryId
  dials : List (LibP2pMultiaddr PeerId)

/-- The libraries the loop runs on. Kademlia names its queries in order and
gives no name twice. -/
structure Network (PeerId NodeKey QueryId : Type) where
  codec : RecordCodec PeerId NodeKey
  sha256 : Bytes → Bytes
  queryId : Nat → QueryId
  fresh : Function.Injective queryId
  showPeer : PeerId → String

/-- Kademlia counting its queries, over a codec and keys that are not hashed. -/
def Network.counting (codec : RecordCodec Nat Nat) : Network Nat Nat Nat where
  codec := codec
  sha256 := id
  queryId := id
  fresh := Function.injective_id
  showPeer := Nat.repr

/-- `AuthorityDiscovery`, with the log of the queries it issued. -/
structure AuthorityDiscovery (PeerId QueryId : Type) where
  swarm : Swarm PeerId QueryId
  queries : Map QueryId PublicKey
  queriesDiscovery : Finset QueryId
  recordsKeys : Map KademliaKey PublicKey
  peerDetails : Map PeerId (PeerDetails PeerId)
  peerInfo : Map PeerId Info
  authorityToDetails : Map PublicKey (Finset (LibP2pMultiaddr PeerId))
  authorities : List PublicKey
  queryIndex : Nat
  dhtErrors : Nat
  remainingAuthorities : Finset PublicKey
  dialOutcomes : Map (LibP2pMultiaddr PeerId) DialOutcome
  dialedAddresses : Finset (LibP2pMultiaddr PeerId)
  issued : List Issue

/-- An order in which a set of the listed authorities can be walked: that of a
hash set, or a shuffle. -/
structure Arrangement (authorities : List PublicKey) where
  order : List PublicKey
  distinct : order.Nodup
  complete : ∀ authority ∈ authorities, authority ∈ order

/-- Authorities without repetition as they are listed. -/
def Arrangement.listed {authorities : List PublicKey} (distinct : authorities.Nodup) :
    Arrangement authorities :=
  ⟨authorities, distinct, fun _ member => member⟩

/-- The same, backwards. -/
def Arrangement.reversed {authorities : List PublicKey} (distinct : authorities.Nodup) :
    Arrangement authorities :=
  ⟨authorities.reverse, List.nodup_reverse.mpr distinct, fun _ member => List.mem_reverse.mpr member⟩

/-- The authorities with the numbers below this one. -/
def numberedKeys (n : Nat) : List PublicKey := (List.range n).map fun i => numberedKey i.toUInt8

theorem numbered_keys_distinct {n : Nat} (few : n ≤ 256) : (numberedKeys n).Nodup := by
  refine List.Nodup.map_on (fun i below j below' same => ?_) List.nodup_range
  rw [List.mem_range] at below below'
  have first : i.toUInt8 = j.toUInt8 := (List.cons.inj (congrArg PublicKey.bytes same)).1
  have value := congrArg UInt8.toNat first
  rw [Nat.toUInt8_eq, Nat.toUInt8_eq, UInt8.toNat_ofNat', UInt8.toNat_ofNat'] at value
  omega

inductive GetRecordResult where
  | foundRecord (key : KademliaKey) (value : Bytes)
  | finished
  | failed

inductive ConnectedPoint (PeerId : Type) where
  | dialer (address : LibP2pMultiaddr PeerId)
  | listener

inductive DialError (PeerId : Type) where
  | transport (attempts : List (LibP2pMultiaddr PeerId × ErrorText))
  | wrongPeerId (obtained : PeerId) (address : LibP2pMultiaddr PeerId)
  | localPeerId (address : LibP2pMultiaddr PeerId)
  | denied
  | other

/-- The swarm events `handle_swarm` acts on; all others are `other`. -/
inductive SwarmEvent (PeerId QueryId : Type) where
  | getRecord (id : QueryId) (last : Bool) (result : GetRecordResult)
  | getClosestPeers (id : QueryId)
  | identified (peerId : PeerId) (info : Info)
  | connectionEstablished (endpoint : ConnectedPoint PeerId)
  | outgoingConnectionError (error : DialError PeerId)
  | other

/-- One turn of the loop with what the outside decides in it: the order of the
remaining authorities, and the error of a dial that fails at once. -/
inductive Turn (PeerId QueryId : Type) (authorities : List PublicKey) where
  | swarm (event : SwarmEvent PeerId QueryId) (order : Arrangement authorities)
      (dial : LibP2pMultiaddr PeerId → Option ErrorText)
  | resubmit (shuffle : Arrangement authorities)

section Model
variable {PeerId NodeKey QueryId : Type} [DecidableEq PeerId] [DecidableEq QueryId]
  (net : Network PeerId NodeKey QueryId)

/-- The key at which the record of an authority is stored. -/
def hashAuthorityId (id : PublicKey) : KademliaKey := ⟨net.sha256 id.bytes⟩

namespace AuthorityDiscovery

def new (authorities : List PublicKey) : AuthorityDiscovery PeerId QueryId where
  swarm := { started := 0, active := ∅, dials := [] }
  queries := ∅
  queriesDiscovery := ∅
  recordsKeys := ∅
  peerDetails := ∅
  peerInfo := ∅
  authorityToDetails := ∅
  authorities := authorities
  queryIndex := 0
  dhtErrors := 0
  remainingAuthorities := authorities.toFinset
  dialOutcomes := ∅
  dialedAddresses := ∅
  issued := []

/-- The body of the loop in `query_dht_records`. -/
def queryDhtRecord (s : AuthorityDiscovery PeerId QueryId) (authority : PublicKey) :
    AuthorityDiscovery PeerId QueryId :=
  let id := net.queryId s.swarm.started
  { s with
    recordsKeys := s.recordsKeys.insert (hashAuthorityId net authority) authority
    queries := s.queries.insert id authority
    swarm := { s.swarm with started := s.swarm.started + 1, active := insert id s.swarm.active }
    issued := s.issued ++ [⟨authority, s.remainingAuthorities, s.queries.values⟩] }

/-- Query the DHT for the records of the authorities. -/
def queryDhtRecords (s : AuthorityDiscovery PeerId QueryId) (authorities : List PublicKey) :
    AuthorityDiscovery PeerId QueryId :=
  authorities.foldl (queryDhtRecord net) s

def getClosestPeers (s : AuthorityDiscovery PeerId QueryId) : AuthorityDiscovery PeerId QueryId :=
  { s with
    queriesDiscovery := insert (net.queryId s.swarm.started) s.queriesDiscovery
    swarm := { s.swarm with started := s.swarm.started + 1 } }

/-- Query the DHT for the closest peers of random peers. -/
def queryPeerInfo (s : AuthorityDiscovery PeerId QueryId) : AuthorityDiscovery PeerId QueryId :=
  if s.queriesDiscovery.card < maxDiscoveryQueries then
    (getClosestPeers net)^[maxDiscoveryQueries - s.queriesDiscovery.card] s
  else s

/-- Add queries from the initial authority list, given from the query index on. -/
def queryInitial : List PublicKey → AuthorityDiscovery PeerId QueryId → AuthorityDiscovery PeerId QueryId
  | [], s => s
  | next :: rest, s =>
    if s.queries.size < maxQueries then
      queryInitial rest { queryDhtRecord net s next with queryIndex := s.queryIndex + 1 }
    else s

/-- Backfill empty slots with remaining authorities that are not in flight. -/
def queryBackfill (order : List PublicKey) (s : AuthorityDiscovery PeerId QueryId) :
    AuthorityDiscovery PeerId QueryId :=
  if s.authorities.length ≤ s.queryIndex ∧ s.queries.size < maxQueries then
    queryDhtRecords net s
      (((HashSet.iterate order s.remainingAuthorities).filter (· ∉ s.queries.values)).take
        (maxQueries - s.queries.size))
  else s

/-- Submit at most `maxQueries` DHT queries to find authority records. -/
def advanceDhtQueries (order : List PublicKey) (s : AuthorityDiscovery PeerId QueryId) :
    AuthorityDiscovery PeerId QueryId :=
  queryPeerInfo net (queryBackfill net order (queryInitial net (s.authorities.drop s.queryIndex) s))

/-- Submit the queries for the remaining authorities that did not receive a
record yet, forgetting the older ones. -/
def resubmitRemainingDhtQueries (shuffle : List PublicKey) (s : AuthorityDiscovery PeerId QueryId) :
    AuthorityDiscovery PeerId QueryId :=
  let remaining := HashSet.iterate shuffle s.remainingAuthorities
  let s := queryDhtRecords net { s with queries := ∅ } (remaining.take maxQueries)
  if remaining.length < maxQueries then queryPeerInfo net s else s

/-- Dial an address that was not dialed before. -/
def dialAddress (dial : LibP2pMultiaddr PeerId → Option ErrorText) (s : AuthorityDiscovery PeerId QueryId)
    (address : LibP2pMultiaddr PeerId) : AuthorityDiscovery PeerId QueryId :=
  if address ∈ s.dialedAddresses then s
  else
    { s with
      dialedAddresses := insert address s.dialedAddresses
      swarm := { s.swarm with dials := s.swarm.dials ++ [address] }
      dialOutcomes := match dial address with
        | none => s.dialOutcomes
        | some error => s.dialOutcomes.insert address (.failed error.message) }

/-- What a decoded record changes. -/
def storeRecord (dial : LibP2pMultiaddr PeerId → Option ErrorText) (authority : PublicKey)
    (peerId : PeerId) (addresses : List (LibP2pMultiaddr PeerId))
    (s : AuthorityDiscovery PeerId QueryId) : AuthorityDiscovery PeerId QueryId :=
  let s := { s with
    authorityToDetails := s.authorityToDetails.upsert authority
      (fun entry => entry ∪ addresses.toFinset) addresses.toFinset
    peerDetails := s.peerDetails.upsert peerId
      (fun entry => { entry with addresses := entry.addresses ∪ addresses.toFinset })
      ⟨authority, addresses.toFinset⟩ }
  let s := addresses.foldl (dialAddress dial) s
  { s with remainingAuthorities := s.remainingAuthorities.erase authority }

/-- What a found record changes, unknown keys and records that do not decode
included. -/
def handleRecord (dial : LibP2pMultiaddr PeerId → Option ErrorText) (key : KademliaKey) (value : Bytes)
    (s : AuthorityDiscovery PeerId QueryId) : AuthorityDiscovery PeerId QueryId :=
  match s.recordsKeys.lookup key with
  | none => s
  | some authority =>
    match decodeDhtRecord net.codec value authority with
    | .error _ => { s with dhtErrors := s.dhtErrors + 1 }
    | .ok (peerId, addresses) => storeRecord dial authority peerId addresses s

/-- Record an outcome for an address a dial has been initiated for. -/
def recordOutcome (address : LibP2pMultiaddr PeerId) (outcome : DialOutcome)
    (s : AuthorityDiscovery PeerId QueryId) : AuthorityDiscovery PeerId QueryId :=
  if address ∈ s.dialedAddresses then
    { s with dialOutcomes := s.dialOutcomes.insert address outcome }
  else s

def handleDialError (error : DialError PeerId) (s : AuthorityDiscovery PeerId QueryId) :
    AuthorityDiscovery PeerId QueryId :=
  match error with
  | .transport attempts =>
    attempts.foldl
      (fun s attempt => recordOutcome attempt.1 (.failed ("transport: " ++ attempt.2.message)) s) s
  | .wrongPeerId obtained address =>
    recordOutcome address (.failed ("wrong peer ID: " ++ net.showPeer obtained)) s
  | .localPeerId address => recordOutcome address (.failed "dialed local peer ID") s
  | .denied => s
  | .other => s

/-- Handle a swarm event from the p2p network. -/
def handleSwarm (order : List PublicKey) (dial : LibP2pMultiaddr PeerId → Option ErrorText)
    (event : SwarmEvent PeerId QueryId) (s : AuthorityDiscovery PeerId QueryId) :
    AuthorityDiscovery PeerId QueryId :=
  match event with
  | .getRecord id _ result =>
    let s := { s with queries := s.queries.erase id }
    match result with
    | .foundRecord key value => advanceDhtQueries net order (handleRecord net dial key value s)
    | .finished => advanceDhtQueries net order s
    | .failed => advanceDhtQueries net order s
  | .getClosestPeers id => queryPeerInfo net { s with queriesDiscovery := s.queriesDiscovery.erase id }
  | .identified peerId info => { s with peerInfo := s.peerInfo.insert peerId info }
  | .connectionEstablished (.dialer address) => recordOutcome address .success s
  | .connectionEstablished .listener => s
  | .outgoingConnectionError error => handleDialError net error s
  | .other => s

/-- Kademlia ends a query with its last event. -/
def deliver (event : SwarmEvent PeerId QueryId) (s : AuthorityDiscovery PeerId QueryId) :
    AuthorityDiscovery PeerId QueryId :=
  match event with
  | .getRecord id true _ => { s with swarm := { s.swarm with active := s.swarm.active.erase id } }
  | _ => s

def turn {authorities : List PublicKey} (s : AuthorityDiscovery PeerId QueryId) :
    Turn PeerId QueryId authorities → AuthorityDiscovery PeerId QueryId
  | .swarm event order dial => handleSwarm net order.order dial event (deliver event s)
  | .resubmit shuffle => resubmitRemainingDhtQueries net shuffle.order s

end AuthorityDiscovery

/-- The runs of `discover`, from its first advance on. -/
def discovery (authorities : List PublicKey) (first : Arrangement authorities) :
    Machine (AuthorityDiscovery PeerId QueryId) (Turn PeerId QueryId authorities) where
  start := .advanceDhtQueries net first.order (.new authorities)
  next := fun s l => some (s.turn net l)

/-- Any sequence of turns is a run. -/
theorem discovery_runs (authorities : List PublicKey) (first : Arrangement authorities)
    (turns : List (Turn PeerId QueryId authorities)) :
    ∃ t, (discovery net authorities first).replay turns = some t := by
  have anywhere : ∀ s, ∃ t, (discovery net authorities first).replayFrom s turns = some t := by
    induction turns with
    | nil => exact fun s => ⟨s, rfl⟩
    | cons l turns ih => exact fun s => ih (s.turn net l)
  exact anywhere _

def barWidth : Nat := 25

/-- The cells of the progress bar that are filled. -/
def filledCells (found total : Nat) : Nat :=
  let pct : ℚ := if 0 < total then found / total else 0
  ⌊pct * barWidth⌋₊

/-- What `discover_authorities` finds of a listed authority. -/
inductive Report (PeerId : Type) where
  | noResponse
  | noAddresses
  /-- The `expect` on the peer id of an address fires. -/
  | panicked
  | reached (peerId : PeerId) (info : Info)
  | unreached (peerId : PeerId)
  deriving DecidableEq

/-- One round of the reporting loop, on the first address in the order the set
is walked in. -/
def report (order : List (LibP2pMultiaddr PeerId)) (s : AuthorityDiscovery PeerId QueryId)
    (authority : PublicKey) : Report PeerId :=
  match s.authorityToDetails.lookup authority with
  | none => .noResponse
  | some details =>
    match (HashSet.iterate order details).head? with
    | none => .noAddresses
    | some address =>
      match getPeerId address with
      | none => .panicked
      | some peerId =>
        match s.peerInfo.lookup peerId with
        | some info => .reached peerId info
        | none => .unreached peerId

end Model

section Frames
variable {PeerId QueryId : Type}

/-- Where a state has the records and the missing authorities of another. -/
structure SameRecords (s s' : AuthorityDiscovery PeerId QueryId) : Prop where
  authorities : s'.authorities = s.authorities
  remaining : s'.remainingAuthorities = s.remainingAuthorities
  details : s'.authorityToDetails = s.authorityToDetails
  peers : s'.peerDetails = s.peerDetails

/-- Where a state has the queries and what they were issued for of another. -/
structure SameQueries (s s' : AuthorityDiscovery PeerId QueryId) : Prop where
  started : s'.swarm.started = s.swarm.started
  active : s'.swarm.active = s.swarm.active
  queries : s'.queries = s.queries
  keys : s'.recordsKeys = s.recordsKeys
  authorities : s'.authorities = s.authorities
  index : s'.queryIndex = s.queryIndex
  issued : s'.issued = s.issued

theorem SameRecords.rfl {s : AuthorityDiscovery PeerId QueryId} : SameRecords s s :=
  ⟨Eq.refl _, Eq.refl _, Eq.refl _, Eq.refl _⟩

theorem SameRecords.trans {s t u : AuthorityDiscovery PeerId QueryId} (first : SameRecords s t)
    (second : SameRecords t u) : SameRecords s u where
  authorities := second.authorities.trans first.authorities
  remaining := second.remaining.trans first.remaining
  details := second.details.trans first.details
  peers := second.peers.trans first.peers

theorem SameQueries.rfl {s : AuthorityDiscovery PeerId QueryId} : SameQueries s s :=
  ⟨Eq.refl _, Eq.refl _, Eq.refl _, Eq.refl _, Eq.refl _, Eq.refl _, Eq.refl _⟩

theorem SameQueries.trans {s t u : AuthorityDiscovery PeerId QueryId} (first : SameQueries s t)
    (second : SameQueries t u) : SameQueries s u where
  started := second.started.trans first.started
  active := second.active.trans first.active
  queries := second.queries.trans first.queries
  keys := second.keys.trans first.keys
  authorities := second.authorities.trans first.authorities
  index := second.index.trans first.index
  issued := second.issued.trans first.issued

/-- What keeps records and queries keeps them over a whole list. -/
theorem fold_same {α : Type} {act : AuthorityDiscovery PeerId QueryId → α → AuthorityDiscovery PeerId QueryId}
    (same : ∀ s a, SameRecords s (act s a) ∧ SameQueries s (act s a))
    (s : AuthorityDiscovery PeerId QueryId) (todo : List α) :
    SameRecords s (todo.foldl act s) ∧ SameQueries s (todo.foldl act s) := by
  induction todo generalizing s with
  | nil => exact ⟨.rfl, .rfl⟩
  | cons a rest ih =>
    have first := same s a
    have later := ih (act s a)
    exact ⟨first.1.trans later.1, first.2.trans later.2⟩

end Frames

section Model
variable {PeerId NodeKey QueryId : Type} [DecidableEq PeerId]
  {net : Network PeerId NodeKey QueryId}

namespace AuthorityDiscovery
variable {s : AuthorityDiscovery PeerId QueryId}
  {dial : LibP2pMultiaddr PeerId → Option ErrorText}

theorem dial_address_same (address : LibP2pMultiaddr PeerId) :
    SameRecords s (dialAddress dial s address) ∧ SameQueries s (dialAddress dial s address) := by
  unfold dialAddress
  split
  · exact ⟨.rfl, .rfl⟩
  · exact ⟨⟨rfl, rfl, rfl, rfl⟩, ⟨rfl, rfl, rfl, rfl, rfl, rfl, rfl⟩⟩

theorem record_outcome_same (address : LibP2pMultiaddr PeerId) (outcome : DialOutcome) :
    SameRecords s (recordOutcome address outcome s) ∧ SameQueries s (recordOutcome address outcome s) := by
  unfold recordOutcome
  split
  · exact ⟨⟨rfl, rfl, rfl, rfl⟩, ⟨rfl, rfl, rfl, rfl, rfl, rfl, rfl⟩⟩
  · exact ⟨.rfl, .rfl⟩

variable (net) in
theorem dial_error_same (error : DialError PeerId) :
    SameRecords s (handleDialError net error s) ∧ SameQueries s (handleDialError net error s) := by
  cases error with
  | transport attempts => exact fold_same (fun _ _ => record_outcome_same _ _) s attempts
  | wrongPeerId obtained address => exact record_outcome_same _ _
  | localPeerId address => exact record_outcome_same _ _
  | denied => exact ⟨.rfl, .rfl⟩
  | other => exact ⟨.rfl, .rfl⟩

/-- A record is stored for an authority when its key was asked for that
authority and its value decodes under it. -/
def Stores (net : Network PeerId NodeKey QueryId) (s : AuthorityDiscovery PeerId QueryId)
    (key : KademliaKey) (value : Bytes) (authority : PublicKey) (peerId : PeerId)
    (addresses : List (LibP2pMultiaddr PeerId)) : Prop :=
  s.recordsKeys.lookup key = some authority ∧
    decodeDhtRecord net.codec value authority = .ok (peerId, addresses)

/-- What storing a record does to the records and the missing authorities. -/
structure Stored (authority : PublicKey) (peerId : PeerId) (addresses : List (LibP2pMultiaddr PeerId))
    (s s' : AuthorityDiscovery PeerId QueryId) : Prop where
  authorities : s'.authorities = s.authorities
  remaining : s'.remainingAuthorities = s.remainingAuthorities.erase authority
  details : s'.authorityToDetails = s.authorityToDetails.upsert authority
    (fun entry => entry ∪ addresses.toFinset) addresses.toFinset
  peers : s'.peerDetails = s.peerDetails.upsert peerId
    (fun entry => { entry with addresses := entry.addresses ∪ addresses.toFinset })
    ⟨authority, addresses.toFinset⟩

theorem store_record_stored (authority : PublicKey) (peerId : PeerId)
    (addresses : List (LibP2pMultiaddr PeerId)) :
    Stored authority peerId addresses s (storeRecord dial authority peerId addresses s) := by
  unfold storeRecord
  extract_lets merged dialed
  have same : SameRecords merged dialed := (fold_same (fun _ address => dial_address_same address) merged addresses).1
  exact {
    authorities := same.authorities
    remaining := congrArg (fun remaining => Finset.erase remaining authority) same.remaining
    details := same.details
    peers := same.peers }

theorem store_record_queries (authority : PublicKey) (peerId : PeerId)
    (addresses : List (LibP2pMultiaddr PeerId)) :
    SameQueries s (storeRecord dial authority peerId addresses s) := by
  unfold storeRecord
  extract_lets merged dialed
  have same : SameQueries merged dialed := (fold_same (fun _ address => dial_address_same address) merged addresses).2
  exact ⟨same.started, same.active, same.queries, same.keys, same.authorities, same.index, same.issued⟩

theorem handle_record_queries (key : KademliaKey) (value : Bytes) :
    SameQueries s (handleRecord net dial key value s) := by
  unfold handleRecord
  cases s.recordsKeys.lookup key with
  | none => exact .rfl
  | some authority =>
    dsimp only
    cases decodeDhtRecord net.codec value authority with
    | error _ => exact ⟨rfl, rfl, rfl, rfl, rfl, rfl, rfl⟩
    | ok found => exact store_record_queries authority found.1 found.2

variable (net dial) in
/-- A found record is stored, or it changes no record. -/
theorem handle_record_cases (key : KademliaKey) (value : Bytes) :
    (∃ authority peerId addresses, Stores net s key value authority peerId addresses ∧
        Stored authority peerId addresses s (handleRecord net dial key value s)) ∨
      (∀ authority peerId addresses, ¬Stores net s key value authority peerId addresses) ∧
        SameRecords s (handleRecord net dial key value s) := by
  unfold handleRecord Stores
  cases asked : s.recordsKeys.lookup key with
  | none =>
    refine .inr ⟨fun _ _ _ stores => ?_, .rfl⟩
    cases stores.1
  | some authority =>
    dsimp only
    cases decoded : decodeDhtRecord net.codec value authority with
    | error _ =>
      refine .inr ⟨fun _ _ _ stores => ?_, ⟨rfl, rfl, rfl, rfl⟩⟩
      obtain ⟨same, accepted⟩ := stores
      cases Option.some.inj same
      rw [decoded] at accepted
      cases accepted
    | ok found =>
      obtain ⟨peerId, addresses⟩ := found
      exact .inl ⟨authority, peerId, addresses, ⟨rfl, decoded⟩, store_record_stored authority peerId addresses⟩

end AuthorityDiscovery

end Model
end Subp2pExplorer.Authorities
