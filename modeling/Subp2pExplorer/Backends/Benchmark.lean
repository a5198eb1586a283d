import Mathlib.Combinatorics.SimpleGraph.Hasse
import Subp2pExplorer.Lib.Maps
import Subp2pExplorer.Lib.Separated
import Subp2pExplorer.Network.Bootnodes
import Subp2pExplorer.Types.PeerId

/-! What the benchmark sets up before its driver runs: the peers to ask for,
kept in a file so that two runs ask for the same ones, and a network of local
backends to ask. An `expect` that fires is a panic. -/
namespace Subp2pExplorer.Backends
open Lib Lib.Separated Subp2pExplorer.Types

/-! ## The data set -/

section DataSet
variable (codec : MultihashCodec) (base58 : Base58)

/-- The file that the peers drawn are written to. -/
def writeDataSet (peers : List PeerId) : String := ",".intercalate (peers.map (·.toBase58 codec base58))

/-- The peers of a file, which all must be readable. -/
def readDataSet (file : String) : Option (List PeerId) :=
  (pieces ',' file).mapM fun line => (PeerId.fromStr codec base58 line).toOption

/-- The number of peers drawn. -/
def numDrawn : Nat := 1024 * 12

/-- `get_peer_ids`, with the file of the data set that was given: the peers, and
what is written. -/
def getPeerIds (draw : Nat → Vector UInt8 32) (dataSet : Option String) : Option (List PeerId × Option String) :=
  match dataSet with
  | none =>
    ((List.range numDrawn).mapM fun i => PeerId.random (draw i)).map fun peers =>
      (peers, some (writeDataSet codec base58 peers))
  | some file => (readDataSet codec base58 file).map fun peers => (peers, none)

/-- Base58 has neither commas nor white space. -/
def Compact : Prop := ∀ bytes, Plain ',' (base58.encode bytes)

variable {codec base58}

theorem all_read_iff {α β : Type} {f : α → Option β} {items : List α} {values : List β} :
    items.mapM f = some values ↔ items.map f = values.map some := by
  induction items generalizing values with
  | nil => cases values <;> simp
  | cons item items ih =>
    rw [List.mapM_cons, List.map_cons]
    simp only [Option.bind_eq_bind, Option.bind_eq_some_iff]
    constructor
    · rintro ⟨value, first, rest, others, same⟩
      cases same
      rw [first, ih.mp others, List.map_cons]
    · intro same
      cases values with
      | nil => cases same
      | cons value values =>
        obtain ⟨first, rest⟩ := List.cons.inj same
        exact ⟨value, first, values, ih.mpr rest, rfl⟩

theorem from_str_written {peer : PeerId} (valid : peer.Valid) :
    PeerId.fromStr codec base58 (peer.toBase58 codec base58) = .ok peer := by
  rw [PeerId.fromStr, PeerId.toBase58, base58.read_back]
  dsimp only
  rw [PeerId.from_bytes_written codec peer valid]
  rfl

/-- A peer between the white space that stands around it in a file. -/
structure Entry where
  before : String
  peer : PeerId
  after : String

variable (codec base58) in
def Entry.padded (entry : Entry) : Padded := ⟨entry.before, entry.peer.toBase58 codec base58, entry.after⟩

variable (codec) in
/-- Valid peers are read back from any file that lists them. -/
theorem read_listed (compact : Compact base58) (entries : List Entry) (nonempty : entries ≠ [])
    (blank : ∀ entry ∈ entries, Blank entry.before ∧ Blank entry.after) (valid : ∀ entry ∈ entries, entry.peer.Valid) :
    readDataSet codec base58 (",".intercalate (entries.map fun entry => (entry.padded codec base58).text)) =
      some (entries.map Entry.peer) := by
  have joined : pieces ',' (",".intercalate ((entries.map (Entry.padded codec base58)).map Padded.text)) =
      (entries.map (Entry.padded codec base58)).map Padded.piece := by
    refine pieces_joined ',' rfl (by simpa) ?_ ?_ ?_
    · exact List.forall_mem_map.mpr fun entry member => (blank entry member).1
    · exact List.forall_mem_map.mpr fun entry _ => compact _
    · exact List.forall_mem_map.mpr fun entry member => (blank entry member).2
  rw [List.map_map] at joined
  unfold readDataSet
  rw [all_read_iff]
  refine (congrArg _ joined).trans ?_
  rw [List.map_map, List.map_map, List.map_map]
  refine List.map_congr_left fun entry member => ?_
  exact congrArg Except.toOption (from_str_written (valid entry member))

/-- The file of some peers is read as these peers. -/
theorem read_written (compact : Compact base58) {peers : List PeerId} (nonempty : peers ≠ [])
    (valid : ∀ peer ∈ peers, peer.Valid) :
    readDataSet codec base58 (writeDataSet codec base58 peers) = some peers := by
  have read := read_listed codec compact (peers.map fun peer => ⟨"", peer, ""⟩) (by simpa)
    (List.forall_mem_map.mpr fun _ _ => ⟨nofun, nofun⟩) (List.forall_mem_map.mpr valid)
  have texts : (peers.map fun peer => Entry.mk "" peer "").map (fun entry => (entry.padded codec base58).text) =
      peers.map (·.toBase58 codec base58) := by
    simp [Entry.padded, Padded.text]
  rw [texts, List.map_map] at read
  exact read.trans (congrArg some (List.map_id peers))

theorem read_nonempty {file : String} {peers : List PeerId} (read : readDataSet codec base58 file = some peers) :
    peers ≠ [] ∧ ∀ peer ∈ peers, peer.Valid := by
  have each := all_read_iff.mp read
  constructor
  · rintro rfl
    rw [List.map_nil, List.map_eq_nil_iff, pieces, List.map_eq_nil_iff] at each
    exact List.splitOn_ne_nil _ _ each
  · intro peer member
    have found : some peer ∈ (pieces ',' file).map fun line => (PeerId.fromStr codec base58 line).toOption :=
      each ▸ List.mem_map_of_mem member
    obtain ⟨line, _, read⟩ := List.mem_map.mp found
    cases parsed : PeerId.fromStr codec base58 line with
    | error error =>
      rw [parsed] at read
      cases read
    | ok peer' =>
      rw [parsed] at read
      cases read
      exact PeerId.from_str_valid codec base58 line peer parsed

theorem random_drawn (draw : Nat → Vector UInt8 32) (numbers : List Nat) :
    ∃ peers, numbers.mapM (fun i => PeerId.random (draw i)) = some peers ∧ peers.length = numbers.length ∧
      ∀ peer ∈ peers, peer.Valid := by
  have drawn : ∀ i, ∃ peer, PeerId.random (draw i) = some peer := by
    intro i
    have room : (draw i).toList.length ≤ 64 := by simp
    rw [PeerId.random, RawMultihash.wrap, dif_pos room]
    exact ⟨_, rfl⟩
  choose peer same using drawn
  refine ⟨numbers.map peer, all_read_iff.mpr ?_, List.length_map _, List.forall_mem_map.mpr fun i _ => ?_⟩
  · rw [List.map_map]
    exact List.map_congr_left fun i _ => same i
  · exact PeerId.random_valid (draw i) _ (same i)

/-- The peers of a run without a data set are those of every later run that is
given its file, in their order. So are the peers of any file that was read, and
what stands around the peers of a file does not count. -/
theorem data_set_read_back (compact : Compact base58) :
    (∀ draw, ∃ peers, getPeerIds codec base58 draw none = some (peers, some (writeDataSet codec base58 peers)) ∧
      peers.length = numDrawn ∧
      ∀ later, getPeerIds codec base58 later (some (writeDataSet codec base58 peers)) = some (peers, none)) ∧
    (∀ draw file peers written, getPeerIds codec base58 draw (some file) = some (peers, written) →
      written = none ∧ peers ≠ [] ∧ (∀ peer ∈ peers, peer.Valid) ∧
      ∀ later, getPeerIds codec base58 later (some (writeDataSet codec base58 peers)) = some (peers, none)) ∧
    ∀ draw entries, entries ≠ [] → (∀ entry ∈ entries, Blank entry.before ∧ Blank entry.after) →
      (∀ entry ∈ entries, entry.peer.Valid) →
      getPeerIds codec base58 draw
        (some (",".intercalate (entries.map fun entry => (entry.padded codec base58).text))) =
          some (entries.map Entry.peer, none) := by
  have again : ∀ peers : List PeerId, peers ≠ [] → (∀ peer ∈ peers, peer.Valid) → ∀ later,
      getPeerIds codec base58 later (some (writeDataSet codec base58 peers)) = some (peers, none) := by
    intro peers nonempty valid later
    rw [getPeerIds, read_written compact nonempty valid]
    rfl
  refine ⟨fun draw => ?_, fun draw file peers written got => ?_, fun draw entries nonempty blank valid => ?_⟩
  · obtain ⟨peers, drawn, count, valid⟩ := random_drawn draw (List.range numDrawn)
    rw [List.length_range] at count
    have nonempty : peers ≠ [] := by
      rintro rfl
      cases count
    refine ⟨peers, ?_, count, again peers nonempty valid⟩
    rw [getPeerIds, drawn]
    rfl
  · obtain ⟨read, found, same⟩ := Option.map_eq_some_iff.mp got
    cases same
    obtain ⟨nonempty, valid⟩ := read_nonempty found
    exact ⟨rfl, nonempty, valid, again peers nonempty valid⟩
  · rw [getPeerIds, read_listed codec compact entries nonempty blank valid]
    rfl

/-- Base58 writes letters of its alphabet only. -/
theorem encoded_listed (bytes : List UInt8) : ∀ c ∈ (Base58.reference.encode bytes).toList, c ∈ base58Alphabet := by
  intro c member
  rw [Base58.reference, String.toList_ofList] at member
  obtain ⟨d, digit, rfl⟩ := List.mem_map.mp member
  have small := Radix.rebase_small 256 58 (by decide) _ d digit
  have listed : ∀ d < 58, base58Alphabet.getD d '1' ∈ base58Alphabet := by decide +kernel
  exact listed d small

/-- With base58 as it is, a drawn data set is read back. -/
theorem drawn_read_back : ∃ peers, peers.length = numDrawn ∧
    getPeerIds .reference .reference (fun i => .replicate 32 i.toUInt8) none =
      some (peers, some (writeDataSet .reference .reference peers)) ∧
    getPeerIds .reference .reference (fun _ => .replicate 32 0) (some (writeDataSet .reference .reference peers)) =
      some (peers, none) := by
  have compact : Compact .reference := by
    intro bytes c member
    have plain : (base58Alphabet.all fun c => c != ',' && !isWhiteSpace c) = true := by decide +kernel
    simpa using List.all_eq_true.mp plain c (encoded_listed bytes c member)
  obtain ⟨peers, drawn, count, again⟩ := (@data_set_read_back .reference _ compact).1
    fun i => .replicate 32 i.toUInt8
  exact ⟨peers, count, drawn, again _⟩

end DataSet

/-! ## The local network -/

/-- A backend as long as it is only connected: where it listens, and the peers
it was told of, in order. -/
structure LocalBackend where
  listenAddresses : List Multiaddr
  known : List (PeerId × List Multiaddr)
  deriving DecidableEq

namespace LocalBackend

def addKnownPeer (peer : PeerId) (addresses : List Multiaddr) (backend : LocalBackend) : LocalBackend :=
  { backend with known := backend.known ++ [(peer, addresses)] }

/-- The peer of a backend as the network reads it off its first address. -/
def peer (backend : LocalBackend) : Option PeerId := backend.listenAddresses.head?.bind PeerId.tryFromMultiaddr

/-- The backends after the first two were told of each other, and so on. -/
def connect : LocalBackend → List LocalBackend → Map PeerId (List Multiaddr) →
    Option (List LocalBackend × Map PeerId (List Multiaddr))
  | current, [], peers => some ([current], peers)
  | current, next :: rest, peers => do
    let currentPeer ← current.peer
    let nextPeer ← next.peer
    let (later, peers) ← connect (next.addKnownPeer currentPeer current.listenAddresses) rest
      ((peers.insert currentPeer current.listenAddresses).insert nextPeer next.listenAddresses)
    some (current.addKnownPeer nextPeer next.listenAddresses :: later, peers)

end LocalBackend

/-- `spawn_network` up to the discovery: the connected backends, and the peers
that bootnodes are taken from. -/
def spawnNetwork : List LocalBackend → Option (List LocalBackend × Map PeerId (List Multiaddr))
  | [] => none
  | first :: rest => first.connect rest ∅

/-- The first addresses of some peers, as texts. -/
def localBootnodes (display : Multiaddr → String) (order : List PeerId) (peers : Map PeerId (List Multiaddr)) :
    Option (List String) :=
  ((peers.iterate order).take 5).mapM fun entry => entry.2.head?.map display

/-- A bootnode of `discovery_backends`. -/
def parseBootnode (codec : MultihashCodec) (base58 : Base58) (parse : String → Option Multiaddr) (bootnode : String) :
    Option (PeerId × Multiaddr) := do
  let multiaddress ← parse bootnode
  let peerId ← (PeerId.fromStr codec base58 (Network.lastPart bootnode)).toOption
  return (peerId, multiaddress)

/-- What a backend is to the others: its peer and where it listens. -/
abbrev Contact : Type := PeerId × List Multiaddr

section LocalNetwork
variable {current : LocalBackend} {backends rest : List LocalBackend} {peers : List PeerId}
  {contacts : List Contact}

def LocalBackend.contact (backend : LocalBackend) : Option Contact :=
  backend.peer.map fun peer => (peer, backend.listenAddresses)

/-- The backends in a row: each is told of the one before it and of the one
after it. The peers of all of them are kept, unless there is only one. -/
theorem connect_row (named : (current :: rest).map LocalBackend.contact = contacts.map some)
    (unconnected : ∀ backend ∈ rest, backend.known = []) (table : Map PeerId (List Multiaddr)) :
    ∃ connected table', current.connect rest table = some (connected, table') ∧
      connected.map LocalBackend.listenAddresses = (current :: rest).map LocalBackend.listenAddresses ∧
      (∀ i backend, connected[i]? = some backend → backend.known =
        (if i = 0 then current.known else contacts[i - 1]?.toList) ++ contacts[i + 1]?.toList) ∧
      table'.keys = table.keys ∪ (if rest = [] then ∅ else (contacts.map Prod.fst).toFinset) ∧
      ∀ peer addresses, table'.lookup peer = some addresses →
        table.lookup peer = some addresses ∨ (peer, addresses) ∈ contacts := by
  induction rest generalizing current contacts table with
  | nil =>
    refine ⟨[current], table, rfl, rfl, fun i backend found => ?_, by simp, fun _ _ => .inl⟩
    obtain ⟨only, none⟩ : ∃ contact, contacts = [contact] := by
      cases contacts with
      | nil => cases named
      | cons contact contacts =>
        have length := congrArg List.length named
        simp at length
        exact ⟨contact, by simp [length]⟩
    cases i with
    | zero =>
      cases found
      simp [none]
    | succ i => cases found
  | cons next rest ih =>
    obtain ⟨own, more, rfl⟩ : ∃ own more, contacts = own :: more := by
      cases contacts with
      | nil => cases named
      | cons own more => exact ⟨own, more, rfl⟩
    obtain ⟨first, others⟩ := List.cons.inj named
    obtain ⟨beside, later, rfl⟩ : ∃ beside later, more = beside :: later := by
      cases more with
      | nil => cases others
      | cons beside later => exact ⟨beside, later, rfl⟩
    obtain ⟨second, _⟩ := List.cons.inj others
    obtain ⟨currentPeer, firstPeer, rfl⟩ := Option.map_eq_some_iff.mp first
    obtain ⟨nextPeer, secondPeer, rfl⟩ := Option.map_eq_some_iff.mp second
    obtain ⟨connected, table', ran, addresses, known, keys, held⟩ :=
      @ih (next.addKnownPeer currentPeer current.listenAddresses) ((nextPeer, next.listenAddresses) :: later) others
        (fun backend member => unconnected backend (List.mem_cons_of_mem _ member))
        ((table.insert currentPeer current.listenAddresses).insert nextPeer next.listenAddresses)
    have fresh : next.known = [] := unconnected next List.mem_cons_self
    refine ⟨current.addKnownPeer nextPeer next.listenAddresses :: connected, table', ?_, ?_, ?_, ?_, ?_⟩
    · simp [LocalBackend.connect, firstPeer, secondPeer, ran]
    · exact congrArg (current.listenAddresses :: ·) addresses
    · intro i backend found
      cases i with
      | zero =>
        cases found
        rfl
      | succ i =>
        rw [known i backend found, LocalBackend.addKnownPeer, fresh]
        cases i <;> rfl
    · have last : rest = [] → later = [] := by
        rintro rfl
        exact List.map_eq_nil_iff.mp (List.cons.inj others).2.symm
      rw [keys, Finmap.keys_insert, Finmap.keys_insert, if_neg (List.cons_ne_nil next rest)]
      ext peer
      by_cases alone : rest = []
      · rw [if_pos alone, last alone]
        simp [or_left_comm]
      · rw [if_neg alone]
        simp [or_left_comm]
    · intro peer listed found
      rcases held peer listed found with before | member
      · rcases Finmap.inserted_entry before with ⟨rfl, rfl⟩ | ⟨_, before⟩
        · exact .inr (List.mem_cons_of_mem _ List.mem_cons_self)
        · rcases Finmap.inserted_entry before with ⟨rfl, rfl⟩ | ⟨_, before⟩
          · exact .inr List.mem_cons_self
          · exact .inl before
      · exact .inr (List.mem_cons_of_mem _ member)

variable (codec : MultihashCodec) (base58 : Base58) (display : Multiaddr → String) (parse : String → Option Multiaddr)

/-- A backend that was told of none, and that listens first at an address with
its own peer. The address is read back from its text, which ends with the peer. -/
structure Listens (backend : LocalBackend) (peer : PeerId) : Prop where
  valid : peer.Valid
  first : ∃ address others, backend.listenAddresses = address :: others ∧
    PeerId.tryFromMultiaddr address = some peer ∧ parse (display address) = some address ∧
    Network.lastPart (display address) = peer.toBase58 codec base58
  unconnected : backend.known = []

/-- The backend at a place was told of a peer. -/
def Knows (connected : List LocalBackend) (i : Nat) (peer : PeerId) : Prop :=
  ∃ backend, connected[i]? = some backend ∧ peer ∈ backend.known.map Prod.fst

variable {codec base58 display parse}

theorem contacts_listed (listening : List.Forall₂ (Listens codec base58 display parse) backends peers) :
    backends.map LocalBackend.contact =
      (peers.zip (backends.map LocalBackend.listenAddresses)).map some := by
  induction listening with
  | nil => rfl
  | cons listens _ ih =>
    obtain ⟨address, others, listed, named, _⟩ := listens.first
    rw [List.map_cons, ih, LocalBackend.contact, LocalBackend.peer, listed]
    simp [listed, named]

/-- Of distinct peers in a row, a backend knows those beside it. -/
theorem knows_iff {connected : List LocalBackend} (distinct : peers.Nodup)
    (places : connected.length = peers.length) (addresses : List (List Multiaddr)) (same : addresses.length = peers.length)
    (known : ∀ i backend, connected[i]? = some backend → backend.known =
      (if i = 0 then [] else (peers.zip addresses)[i - 1]?.toList) ++ (peers.zip addresses)[i + 1]?.toList)
    (i j : Fin peers.length) :
    Knows connected i peers[j] ↔ (SimpleGraph.pathGraph peers.length).Adj i j := by
  have standing : ∀ k : Nat, peers[j] ∈ peers[k]?.toList ↔ k = j := by
    intro k
    rw [Option.mem_toList, List.getElem?_eq_some_iff]
    constructor
    · rintro ⟨inside, found⟩
      exact (distinct.getElem_inj_iff).mp found
    · rintro rfl
      exact ⟨j.isLt, rfl⟩
  have names : (peers.zip addresses).map Prod.fst = peers := List.map_fst_zip same.ge
  have beside : ∀ k : Nat, (peers.zip addresses)[k]?.toList.map Prod.fst = peers[k]?.toList := by
    intro k
    rw [← Option.toList_map, ← List.getElem?_map, names]
  obtain ⟨backend, found⟩ : ∃ backend, connected[i.val]? = some backend :=
    ⟨_, List.getElem?_eq_getElem (i.isLt.trans_eq places.symm)⟩
  have told : peers[j] ∈ backend.known.map Prod.fst ↔ (i.val ≠ 0 ∧ i.val - 1 = j) ∨ i.val + 1 = j := by
    rw [known i.val backend found, List.map_append, List.mem_append, beside, standing]
    refine or_congr_left ?_
    by_cases zero : i.val = 0
    · simp [zero]
    · rw [if_neg zero, beside, standing]
      exact (and_iff_right zero).symm
  rw [SimpleGraph.pathGraph_adj]
  constructor
  · rintro ⟨_, found', member⟩
    cases found.symm.trans found'
    have place := told.mp member
    omega
  · intro place
    exact ⟨backend, found, told.mpr (by omega)⟩

theorem contact_listens (listening : List.Forall₂ (Listens codec base58 display parse) backends peers)
    {entry : Contact} (listed : entry ∈ peers.zip (backends.map LocalBackend.listenAddresses)) :
    ∃ backend, Listens codec base58 display parse backend entry.1 ∧ backend.listenAddresses = entry.2 := by
  induction listening with
  | nil => cases listed
  | cons listens _ ih =>
    rcases List.mem_cons.mp listed with rfl | later
    · exact ⟨_, listens, rfl⟩
    · exact ih later

/-- What bootnodes are taken from makes texts that are read back. -/
theorem bootnodes_read (listening : List.Forall₂ (Listens codec base58 display parse) backends peers)
    {entries : List Contact}
    (listed : ∀ entry ∈ entries, entry ∈ peers.zip (backends.map LocalBackend.listenAddresses)) :
    ∃ bootnodes given, (entries.mapM fun entry => entry.2.head?.map display) = some bootnodes ∧
      bootnodes.mapM (parseBootnode codec base58 parse) = some given ∧
      given.map Prod.fst = entries.map Prod.fst ∧
      ∀ node ∈ given, ∃ entry ∈ entries, entry.1 = node.1 ∧ entry.2.head? = some node.2 := by
  induction entries with
  | nil => exact ⟨[], [], rfl, rfl, rfl, nofun⟩
  | cons entry entries ih =>
    obtain ⟨bootnodes, given, texts, read, named, taken⟩ :=
      ih fun other member => listed other (List.mem_cons_of_mem _ member)
    obtain ⟨backend, listens, same⟩ := contact_listens listening (listed entry List.mem_cons_self)
    obtain ⟨address, others, shape, _, back, last⟩ := listens.first
    have head : entry.2.head? = some address := by rw [← same, shape]; rfl
    have parsed : parseBootnode codec base58 parse (display address) = some (entry.1, address) := by
      rw [parseBootnode, back, last, from_str_written listens.valid]
      rfl
    refine ⟨display address :: bootnodes, (entry.1, address) :: given, ?_, ?_, ?_, ?_⟩
    · simp [List.mapM_cons, head, texts]
    · simp [List.mapM_cons, parsed, read]
    · rw [List.map_cons, named, List.map_cons]
    · intro node member
      rcases List.mem_cons.mp member with rfl | later
      · exact ⟨entry, List.mem_cons_self, rfl, head⟩
      · obtain ⟨from_entry, inside, facts⟩ := taken node later
        exact ⟨from_entry, List.mem_cons_of_mem _ inside, facts⟩

/-- The local network is a row, not a ring: each backend knows those beside it,
so there is a way between any two. The discovery is given up to five of them as
bootnodes, all readable, and none if there is one backend only. -/
theorem local_network_row (order : HashSet.Order PeerId)
    (listening : List.Forall₂ (Listens codec base58 display parse) backends peers) (distinct : peers.Nodup)
    (nonempty : backends ≠ []) :
    ∃ connected table bootnodes given, spawnNetwork backends = some (connected, table) ∧
      connected.map LocalBackend.listenAddresses = backends.map LocalBackend.listenAddresses ∧
      (∀ i j : Fin peers.length, Knows connected i peers[j] ↔ (SimpleGraph.pathGraph peers.length).Adj i j) ∧
      (∀ i j : Fin peers.length, Relation.ReflTransGen (fun i j : Fin peers.length => Knows connected i peers[j]) i j) ∧
      localBootnodes display (order.walk table.keys) table = some bootnodes ∧
      bootnodes.mapM (parseBootnode codec base58 parse) = some given ∧
      given.length = (if peers.length = 1 then 0 else min 5 peers.length) ∧ (given.map Prod.fst).Nodup ∧
      ∀ node ∈ given, ∃ i : Fin peers.length, node.1 = peers[i] ∧
        ∃ backend, connected[i.val]? = some backend ∧ backend.listenAddresses.head? = some node.2 := by
  obtain ⟨first, rest, rfl⟩ := List.exists_cons_of_ne_nil nonempty
  have lengths := listening.length_eq
  have fresh : ∀ backend ∈ first :: rest, backend.known = [] := by
    intro backend member
    obtain ⟨i, inside, rfl⟩ := List.getElem_of_mem member
    exact (listening.get inside (lengths ▸ inside)).unconnected
  obtain ⟨connected, table, ran, same, known, keys, held⟩ := connect_row (contacts_listed listening)
    (fun backend member => fresh backend (List.mem_cons_of_mem _ member)) ∅
  rw [fresh first List.mem_cons_self] at known
  have places : connected.length = peers.length := by
    have count := congrArg List.length same
    rw [List.length_map, List.length_map] at count
    exact count.trans lengths
  have knows := knows_iff distinct places ((first :: rest).map LocalBackend.listenAddresses)
    ((List.length_map _).trans lengths) known
  have ways : ∀ i j : Fin peers.length,
      Relation.ReflTransGen (fun i j : Fin peers.length => Knows connected i peers[j]) i j := by
    intro i j
    have reached := SimpleGraph.pathGraph_preconnected peers.length i j
    rw [SimpleGraph.reachable_iff_reflTransGen] at reached
    exact Relation.ReflTransGen.mono (fun i j => (knows i j).mpr) _ _ reached
  have walked : (table.iterate (order.walk table.keys)).map Prod.fst = order.walk table.keys :=
    Finmap.iterate_keys fun peer member => Finmap.mem_keys.mp ((order.walks _).exact peer |>.mp member)
  have listed : ∀ entry ∈ (table.iterate (order.walk table.keys)).take 5,
      entry ∈ peers.zip ((first :: rest).map LocalBackend.listenAddresses) := by
    intro entry member
    rcases held entry.1 entry.2 (Finmap.mem_iterate (List.mem_of_mem_take member)) with empty | inside
    · cases empty
    · exact inside
  obtain ⟨bootnodes, given, texts, read, named, taken⟩ := bootnodes_read listening listed
  rw [List.map_take, walked] at named
  refine ⟨connected, table, bootnodes, given, ran, same, knows, ways, texts, read, ?_, ?_, fun node member => ?_⟩
  · have count := congrArg List.length named
    rw [List.length_map, List.length_take, (order.walks table.keys).length_eq, keys] at count
    rw [count]
    have alone : rest = [] ↔ peers.length = 1 := by
      rw [← lengths, List.length_cons, ← List.length_eq_zero_iff]
      omega
    by_cases single : peers.length = 1
    · rw [if_pos (alone.mpr single), if_pos single]
      rfl
    · rw [if_neg (mt alone.mp single), if_neg single, List.map_fst_zip (by simp [← lengths])]
      simp [List.toFinset_card_of_nodup distinct]
  · rw [named]
    exact ((order.walks table.keys).distinct).sublist (List.take_sublist 5 _)
  · obtain ⟨entry, taken, own, head⟩ := taken node member
    obtain ⟨i, bound, found⟩ := List.getElem_of_mem (listed entry taken)
    have inside : i < peers.length := (List.length_zip ▸ bound).trans_le (min_le_left _ _)
    rw [List.getElem_zip] at found
    cases found
    have place : i < connected.length := inside.trans_eq places.symm
    refine ⟨⟨i, inside⟩, own.symm, connected[i], List.getElem?_eq_getElem place, ?_⟩
    have within : i < ((first :: rest).map LocalBackend.listenAddresses).length := by
      rw [List.length_map, lengths]
      exact inside
    have listens : connected[i].listenAddresses = ((first :: rest).map LocalBackend.listenAddresses)[i] := by
      rw [← List.getElem_map LocalBackend.listenAddresses]
      · exact List.getElem_of_eq same _
      · rw [List.length_map]; exact place
    rw [listens]
    exact head

/-! A network on this host, with texts of the addresses that its backends have. -/

def localAddress (peer : PeerId) : Multiaddr := .fromIter [.ip4 localhost, .tcp 30333, .p2p peer.multihash]

def localText (address : Multiaddr) : String :=
  "/".intercalate ["", "ip4", "127.0.0.1", "tcp", "30333", "p2p",
    (PeerId.tryFromMultiaddr address).elim "" (·.toBase58 .reference .reference)]

def parseLocal (text : String) : Option Multiaddr :=
  (PeerId.fromStr .reference .reference (Network.lastPart text)).toOption.map localAddress

def localBackend (peer : PeerId) : LocalBackend := ⟨[localAddress peer], []⟩

theorem local_backend_listens {peer : PeerId} (valid : peer.Valid) :
    Listens .reference .reference localText parseLocal (localBackend peer) peer := by
  have named : PeerId.tryFromMultiaddr (localAddress peer) = some peer :=
    (PeerId.try_from_multiaddr_iff (localAddress peer) peer).mpr
      ⟨[.ip4 localhost, .tcp 30333], [], Multiaddr.iter_from_iter _, by decide⟩
  have last : Network.lastPart (localText (localAddress peer)) = peer.toBase58 .reference .reference := by
    unfold localText
    rw [named, Option.elim_some]
    have alphabet : '/' ∉ base58Alphabet := by decide +kernel
    have apart : ∀ part ∈ ["", "ip4", "127.0.0.1", "tcp", "30333", "p2p",
        peer.toBase58 .reference .reference].map String.toList, '/' ∉ part := by
      intro part member
      simp only [List.map_cons, List.map_nil, List.mem_cons, List.not_mem_nil, or_false] at member
      rcases member with rfl | rfl | rfl | rfl | rfl | rfl | rfl
      on_goal 7 => exact fun found => alphabet (encoded_listed _ _ found)
      all_goals decide +kernel
    rw [Network.lastPart, String.toList_intercalate]
    have split := List.splitOn_intercalate '/' apart (by simp)
    rw [show "/".toList = ['/'] from rfl, split]
    exact String.ofList_toList
  refine ⟨valid, ⟨localAddress peer, [], rfl, named, ?_, last⟩, rfl⟩
  rw [parseLocal, last, from_str_written valid]
  rfl

def localPeer (fill : UInt8) : PeerId := ⟨⟨⟨0, List.replicate 36 fill, by simp⟩⟩⟩

/-- Three backends in a row, all of them bootnodes. -/
theorem three_in_row : ∃ connected table bootnodes given,
    spawnNetwork ([1, 2, 3].map fun fill => localBackend (localPeer fill)) = some (connected, table) ∧
    Knows connected 0 (localPeer 2) ∧ Knows connected 1 (localPeer 3) ∧ ¬Knows connected 2 (localPeer 1) ∧
    localBootnodes localText ((HashSet.Order.arbitrary PeerId).walk table.keys) table = some bootnodes ∧
    bootnodes.mapM (parseBootnode .reference .reference parseLocal) = some given ∧ given.length = 3 := by
  have listening : List.Forall₂ (Listens .reference .reference localText parseLocal)
      ([1, 2, 3].map fun fill => localBackend (localPeer fill)) ([1, 2, 3].map localPeer) :=
    .cons (local_backend_listens rfl) (.cons (local_backend_listens rfl) (.cons (local_backend_listens rfl) .nil))
  obtain ⟨connected, table, bootnodes, given, ran, -, knows, -, texts, read, count, -⟩ :=
    local_network_row (.arbitrary PeerId) listening (by decide) (by simp)
  have beside := fun i j : Fin 3 => (knows i j).trans SimpleGraph.pathGraph_adj
  exact ⟨connected, table, bootnodes, given, ran, (beside 0 1).mpr (by decide), (beside 1 2).mpr (by decide),
    mt (beside 2 0).mp (by decide), texts, read, count⟩

end LocalNetwork
end Subp2pExplorer.Backends
