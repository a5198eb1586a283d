import Subp2pExplorer.Authorities.Queries

/-! The records of the discovery: which authorities they are found for, whose
signatures stand behind the addresses kept, and whether these name a peer.
Records change in one kind of turn only, the answer that stores one. -/
namespace Subp2pExplorer.Authorities
open Lib Subp2pExplorer.Types
namespace AuthorityDiscovery

section Partitions
variable {PeerId NodeKey QueryId : Type} {net : Network PeerId NodeKey QueryId}
  {s : AuthorityDiscovery PeerId QueryId} {authorities : List PublicKey}

/-- What the found and the missing authorities add up to, and where the keys
asked for come from. -/
structure Partition (authorities : List PublicKey) (s : AuthorityDiscovery PeerId QueryId) : Prop where
  listed : s.authorities = authorities
  asked : ∀ a ∈ s.recordsKeys.values, a ∈ authorities
  apart : Disjoint s.authorityToDetails.keys s.remainingAuthorities
  whole : s.authorityToDetails.keys ∪ s.remainingAuthorities = authorities.toFinset

private theorem partition_missing {a : PublicKey} (parted : Partition authorities s)
    (missing : a ∈ s.remainingAuthorities) : a ∈ authorities := by
  rw [← List.mem_toFinset, ← parted.whole]
  exact Finset.mem_union_right _ missing

private theorem partition_next {a : PublicKey} (parted : Partition authorities s)
    (next : s.authorities[s.queryIndex]? = some a) : a ∈ authorities :=
  parted.listed ▸ List.mem_of_getElem? next

private theorem same_partition {s s' : AuthorityDiscovery PeerId QueryId} (records : SameRecords s s')
    (keys : s'.recordsKeys = s.recordsKeys) (parted : Partition authorities s) :
    Partition authorities s' where
  listed := records.authorities.trans parted.listed
  asked := by rw [keys]; exact parted.asked
  apart := by rw [records.details, records.remaining]; exact parted.apart
  whole := by rw [records.details, records.remaining]; exact parted.whole

/-- Where a record is stored, its authority passes from the missing to the found. -/
theorem stored_partition [DecidableEq PeerId] {authority : PublicKey} {peerId : PeerId}
    {addresses : List (LibP2pMultiaddr PeerId)} {s' : AuthorityDiscovery PeerId QueryId}
    (parted : Partition authorities s) (keys : s'.recordsKeys = s.recordsKeys)
    (member : authority ∈ authorities) (stored : Stored authority peerId addresses s s') :
    Partition authorities s' where
  listed := stored.authorities.trans parted.listed
  asked := by rw [keys]; exact parted.asked
  apart := by
    rw [stored.details, Finmap.keys_upsert, stored.remaining, Finset.disjoint_insert_left]
    exact ⟨Finset.notMem_erase _ _, parted.apart.mono_right (Finset.erase_subset _ _)⟩
  whole := by
    rw [stored.details, Finmap.keys_upsert, stored.remaining, Finset.insert_union, ← Finset.union_insert]
    ext a
    have whole := Finset.ext_iff.mp parted.whole a
    simp only [Finset.mem_union, Finset.mem_insert, Finset.mem_erase, List.mem_toFinset] at whole ⊢
    by_cases same : a = authority
    · simp [same, member]
    · simp [same, ← whole]

variable [DecidableEq QueryId]

private theorem partition_issue {a : PublicKey} (parted : Partition authorities s) (member : a ∈ authorities) :
    Partition authorities (queryDhtRecord net s a) where
  listed := parted.listed
  asked := fun b value => by
    rcases Finmap.mem_values_insert value with same | before
    · exact same ▸ member
    · exact parted.asked b before
  apart := parted.apart
  whole := parted.whole

private theorem advance_partition (order : Arrangement authorities) (parted : Partition authorities s) :
    Partition authorities (advanceDhtQueries net order.order s) := by
  refine advance_rule order.distinct ?_ ?_ (fun _ held => ⟨held.1, held.2, held.3, held.4⟩) parted
  · intro s a held next _
    have issued : Partition authorities (queryDhtRecord net s a) :=
      partition_issue held (partition_next held next)
    exact ⟨issued.1, issued.2, issued.3, issued.4⟩
  · exact fun s a held _ missing _ => partition_issue held (partition_missing held missing)

theorem filled_cells_le {found total : Nat} (within : found ≤ total) : filledCells found total ≤ barWidth := by
  unfold filledCells
  apply Nat.floor_le_of_le
  have cells : (0 : ℚ) ≤ barWidth := Nat.cast_nonneg _
  split
  · rename_i positive
    have share : (found : ℚ) / total ≤ 1 := by
      rw [div_le_one (Nat.cast_pos.mpr positive)]
      exact Nat.cast_le.mpr within
    exact mul_le_of_le_one_left cells share
  · rw [zero_mul]
    exact cells

end Partitions

section Runs
variable {PeerId NodeKey QueryId : Type} [DecidableEq PeerId] [DecidableEq QueryId]
  {net : Network PeerId NodeKey QueryId} {s t : AuthorityDiscovery PeerId QueryId}
  {authorities : List PublicKey} {first : Arrangement authorities}
  {turns : List (Turn PeerId QueryId authorities)}

/-- This turn brings a value under a key. -/
def Receives (key : KademliaKey) (value : Bytes) (l : Turn PeerId QueryId authorities) : Prop :=
  ∃ id last order dial, l = .swarm (.getRecord id last (.foundRecord key value)) order dial

variable (net s) in
/-- A turn stores a record it received, or it changes no record. -/
theorem turn_cases (l : Turn PeerId QueryId authorities) :
    (∃ key value authority peerId addresses, Receives key value l ∧
        Stores net s key value authority peerId addresses ∧
        Stored authority peerId addresses s (s.turn net l)) ∨
      (∀ key value authority peerId addresses, Receives key value l →
        ¬Stores net s key value authority peerId addresses) ∧ SameRecords s (s.turn net l) := by
  by_cases answer : ∃ id last result order dial, l = .swarm (.getRecord id last result) order dial
  · obtain ⟨id, last, result, order, dial, same⟩ := answer
    subst same
    have advanced : SameRecords (answered net dial id last result s)
        (s.turn net (.swarm (.getRecord id last result) order dial)) := by
      cases result <;> exact advance_same order.distinct
    rcases answered_cases net s dial id last result with
      ⟨key, value, authority, peerId, addresses, found, stores, stored⟩ | ⟨refused, same⟩
    · subst found
      refine .inl ⟨key, value, authority, peerId, addresses, ⟨id, last, order, dial, rfl⟩, stores, ?_⟩
      exact {
        authorities := advanced.authorities.trans stored.authorities
        remaining := advanced.remaining.trans stored.remaining
        details := advanced.details.trans stored.details
        peers := advanced.peers.trans stored.peers }
    · refine .inr ⟨?_, same.trans advanced⟩
      rintro key value authority peerId addresses ⟨_, _, _, _, received⟩
      cases received
      exact refused key value authority peerId addresses rfl
  · refine .inr ⟨?_, ?_⟩
    · rintro key value authority peerId addresses ⟨id, last, order, dial, received⟩
      exact absurd ⟨id, last, _, order, dial, received⟩ answer
    · refine turn_rule (P := SameRecords s) (fun _ same _ => same)
        (fun _ held => held.trans ⟨rfl, rfl, rfl, rfl⟩) ?_ (fun shuffle _ => resubmit_same shuffle.distinct)
      intro id last result order dial same
      exact absurd ⟨id, last, result, order, dial, same⟩ answer

theorem turn_partition (parted : Partition authorities s) (l : Turn PeerId QueryId authorities) :
    Partition authorities (s.turn net l) := by
  refine turn_rule (P := Partition authorities) ?_ (fun _ held => ⟨held.1, held.2, held.3, held.4⟩) ?_ ?_
  · exact fun s' records queries => same_partition records queries.keys parted
  · intro id last result order dial _
    apply advance_partition order
    have queries := answered_queries net s dial id last result
    rcases answered_cases net s dial id last result with
      ⟨key, _, authority, _, _, _, stores, stored⟩ | ⟨_, same⟩
    · have member := parted.asked authority (Finmap.mem_values.mpr ⟨key, stores.1⟩)
      exact stored_partition parted queries.keys member stored
    · exact same_partition same queries.keys parted
  · intro shuffle _
    exact resubmit_rule shuffle.distinct
      (fun s' a _ held missing _ => partition_issue held (partition_missing held missing))
      (fun _ held => ⟨held.1, held.2, held.3, held.4⟩) ⟨parted.1, parted.2, parted.3, parted.4⟩

theorem run_partition (run : (discovery net authorities first).replay turns = some t) :
    Partition authorities t := by
  apply run_rule (fun s l held _ => turn_partition held l) ?_ (Machine.meets_trivial turns) run
  exact advance_partition first {
    listed := rfl
    asked := fun a member => absurd member (Multiset.notMem_zero a)
    apart := Finset.disjoint_empty_left _
    whole := Finset.empty_union _ }

/-- This turn decodes a record received for the authority and stores it. -/
def StoresFor (net : Network PeerId NodeKey QueryId) (s : AuthorityDiscovery PeerId QueryId)
    (l : Turn PeerId QueryId authorities) (a : PublicKey) : Prop :=
  ∃ key value peerId addresses, Receives key value l ∧ Stores net s key value a peerId addresses ∧
    ∃ entry, (s.turn net l).authorityToDetails.lookup a = some entry ∧ addresses.toFinset ⊆ entry

/-- An authority stops missing exactly in the turns that store a record for it. -/
theorem leaves_iff {a : PublicKey} (missing : a ∈ s.remainingAuthorities)
    (l : Turn PeerId QueryId authorities) :
    a ∉ (s.turn net l).remainingAuthorities ↔ StoresFor net s l a := by
  rcases turn_cases net s l with
    ⟨key, value, authority, peerId, addresses, received, stores, stored⟩ | ⟨refused, same⟩
  · constructor
    · intro gone
      rw [stored.remaining, Finset.mem_erase, not_and_or, not_not] at gone
      have same : a = authority := gone.resolve_right fun kept => kept missing
      subst same
      refine ⟨key, value, peerId, addresses, received, stores, ?_⟩
      rw [stored.details, Finmap.lookup_upsert]
      refine ⟨_, rfl, ?_⟩
      cases s.authorityToDetails.lookup a with
      | none => exact Finset.Subset.refl _
      | some entry => exact Finset.subset_union_right
    · rintro ⟨key', value', _, _, received', stores', _⟩
      obtain ⟨_, _, _, _, rfl⟩ := received
      obtain ⟨_, _, _, _, same⟩ := received'
      cases same
      have same := Option.some.inj (stores'.1.symm.trans stores.1)
      rw [stored.remaining, same]
      exact Finset.notMem_erase _ _
  · constructor
    · exact fun gone => absurd (same.remaining ▸ missing) gone
    · rintro ⟨key, value, peerId, addresses, received, stores, _⟩
      exact absurd stores (refused key value a peerId addresses received)

private theorem two_distinct : (numberedKeys 2).Nodup := numbered_keys_distinct (by decide)

def bareAddress : LibP2pMultiaddr Nat := [.dns "validator", .tcp 30333]

def namedAddress : LibP2pMultiaddr Nat := [.dns "validator", .tcp 30333, .p2p 7]

/-- The record of authority 0 arrives. -/
def publishedAnswer : List (Turn Nat Nat (numberedKeys 2)) :=
  [.swarm (.getRecord 0 true (.foundRecord ⟨(numberedKey 0).bytes⟩ [1])) (.listed two_distinct) fun _ => none]

/-- Found and missing authorities partition the listed ones at every boundary,
the progress bar stays in its width, and an authority leaves the missing ones
exactly when a record for it is decoded and stored. -/
theorem found_and_missing_partition (run : (discovery net authorities first).replay turns = some t) :
    Disjoint t.authorityToDetails.keys t.remainingAuthorities ∧
      t.authorityToDetails.keys ∪ t.remainingAuthorities = authorities.toFinset ∧
      t.authorityToDetails.size ≤ t.authorities.length ∧
      filledCells t.authorityToDetails.size t.authorities.length ≤ barWidth ∧
      ∀ (l : Turn PeerId QueryId authorities), ∀ a ∈ t.remainingAuthorities,
        a ∉ (t.turn net l).remainingAuthorities ↔ StoresFor net t l a := by
  have parted := run_partition run
  have within : t.authorityToDetails.size ≤ t.authorities.length := by
    rw [parted.listed]
    have found : t.authorityToDetails.keys ⊆ authorities.toFinset := by
      rw [← parted.whole]
      exact Finset.subset_union_left
    exact (Finset.card_le_card found).trans (List.toFinset_card_le _)
  exact ⟨parted.apart, parted.whole, within, filled_cells_le within, fun l a missing => leaves_iff missing l⟩

/-- A record of one authority and a record of none: found, and not missing. -/
theorem published_authority_found : ∃ t,
    (discovery (.counting (.onePublished [namedAddress])) (numberedKeys 2) (.listed two_distinct)).replay
      publishedAnswer = some t ∧
    Disjoint t.authorityToDetails.keys t.remainingAuthorities ∧
      t.authorityToDetails.keys ∪ t.remainingAuthorities = (numberedKeys 2).toFinset ∧
      t.authorityToDetails.size ≤ t.authorities.length ∧
      filledCells t.authorityToDetails.size t.authorities.length ≤ barWidth ∧
      ∀ (l : Turn Nat Nat (numberedKeys 2)), ∀ a ∈ t.remainingAuthorities,
        a ∉ (t.turn (.counting (.onePublished [namedAddress])) l).remainingAuthorities ↔
          StoresFor (.counting (.onePublished [namedAddress])) t l a := by
  obtain ⟨t, run⟩ := discovery_runs (.counting (.onePublished [namedAddress])) (numberedKeys 2)
    (.listed two_distinct) publishedAnswer
  exact ⟨t, run, found_and_missing_partition run⟩

/-- An address listed in a value that the authority and the node of the peer
both signed. -/
def Vouches (codec : RecordCodec PeerId NodeKey) (value : Bytes) (a : PublicKey) (peerId : PeerId)
    (address : LibP2pMultiaddr PeerId) : Prop :=
  ∃ addresses payload authSignature peerSignature publicKey,
    Accepted codec value a peerId addresses payload authSignature peerSignature publicKey ∧
      address ∈ addresses

/-- A value received so far. -/
def Heard (past : List (Turn PeerId QueryId authorities)) (value : Bytes) : Prop :=
  ∃ key, ∃ l ∈ past, Receives key value l

/-- What the details of an authority and of a peer rest on. -/
structure Credited (net : Network PeerId NodeKey QueryId) (past : List (Turn PeerId QueryId authorities))
    (s : AuthorityDiscovery PeerId QueryId) : Prop where
  details : ∀ a entry, s.authorityToDetails.lookup a = some entry → ∀ address ∈ entry,
    ∃ value peerId, Heard past value ∧ Vouches net.codec value a peerId address
  peers : ∀ p entry, s.peerDetails.lookup p = some entry →
    (∃ value address, Heard past value ∧ Vouches net.codec value entry.authorityId p address) ∧
    ∀ address ∈ entry.addresses, ∃ value a, Heard past value ∧ Vouches net.codec value a p address

omit [DecidableEq PeerId] [DecidableEq QueryId] in
private theorem heard_later {past : List (Turn PeerId QueryId authorities)} {value : Bytes}
    (heard : Heard past value) (l : Turn PeerId QueryId authorities) : Heard (past ++ [l]) value := by
  obtain ⟨key, earlier, member, received⟩ := heard
  exact ⟨key, earlier, List.mem_append_left _ member, received⟩

omit [DecidableEq QueryId] in
private theorem credited_later {past : List (Turn PeerId QueryId authorities)} (credited : Credited net past s)
    (l : Turn PeerId QueryId authorities) : Credited net (past ++ [l]) s where
  details := fun a entry found address member => by
    obtain ⟨value, peerId, heard, vouched⟩ := credited.details a entry found address member
    exact ⟨value, peerId, heard_later heard l, vouched⟩
  peers := fun p entry found => by
    obtain ⟨⟨value, address, heard, vouched⟩, rest⟩ := credited.peers p entry found
    refine ⟨⟨value, address, heard_later heard l, vouched⟩, fun other member => ?_⟩
    obtain ⟨value, a, heard, vouched⟩ := rest other member
    exact ⟨value, a, heard_later heard l, vouched⟩

theorem turn_credited {past : List (Turn PeerId QueryId authorities)} (credited : Credited net past s)
    (l : Turn PeerId QueryId authorities) : Credited net (past ++ [l]) (s.turn net l) := by
  have before := credited_later credited l
  rcases turn_cases net s l with
    ⟨key, value, authority, peerId, addresses, received, stores, stored⟩ | ⟨_, same⟩
  · have heard : Heard (past ++ [l]) value :=
      ⟨key, l, List.mem_append_right _ List.mem_cons_self, received⟩
    obtain ⟨payload, authSignature, peerSignature, publicKey, accepted⟩ := decoded_accepted stores.2
    have vouched : ∀ address ∈ addresses, Vouches net.codec value authority peerId address :=
      fun address member => ⟨addresses, payload, authSignature, peerSignature, publicKey, accepted, member⟩
    have added : ∀ address ∈ addresses.toFinset, Vouches net.codec value authority peerId address :=
      fun address member => vouched address (List.mem_toFinset.mp member)
    constructor
    · rw [stored.details]
      refine Finmap.upsert_all before.details (fun entry kept address member => ?_) fun address member =>
        ⟨value, peerId, heard, added address member⟩
      rcases Finset.mem_union.mp member with old | new
      · exact kept address old
      · exact ⟨value, peerId, heard, added address new⟩
    · rw [stored.peers]
      refine Finmap.upsert_all before.peers (fun entry kept => ⟨kept.1, fun address member => ?_⟩) ⟨?_, ?_⟩
      · rcases Finset.mem_union.mp member with old | new
        · exact kept.2 address old
        · exact ⟨value, authority, heard, added address new⟩
      · obtain ⟨address, member⟩ := List.exists_mem_of_ne_nil addresses accepted.nonempty
        exact ⟨value, address, heard, vouched address member⟩
      · exact fun address member => ⟨value, authority, heard, added address member⟩
  · exact ⟨by rw [same.details]; exact before.details, by rw [same.peers]; exact before.peers⟩

/-- Every address kept for an authority or a peer was listed in a received
record signed by that authority and by the node of that peer. -/
theorem stored_addresses_vouched (run : (discovery net authorities first).replay turns = some t) :
    (∀ a entry, t.authorityToDetails.lookup a = some entry → ∀ address ∈ entry,
      ∃ value peerId, Heard turns value ∧ Vouches net.codec value a peerId address) ∧
    ∀ p entry, t.peerDetails.lookup p = some entry →
      (∃ value address, Heard turns value ∧ Vouches net.codec value entry.authorityId p address) ∧
      ∀ address ∈ entry.addresses, ∃ value a, Heard turns value ∧ Vouches net.codec value a p address := by
  have start : Credited net ([] : List (Turn PeerId QueryId authorities))
      (discovery net authorities first).start := by
    have same : SameRecords (.new authorities) (discovery net authorities first).start := start_same
    constructor
    · rw [same.details]
      intro a entry found
      cases found
    · rw [same.peers]
      intro p entry found
      cases found
  have credited : Credited net turns t := by
    refine Machine.history_invariant (I := Credited net) (fun past s l s' held _ step => ?_) start
      (Machine.meets_trivial turns) run
    cases step
    exact turn_credited held l
  exact ⟨credited.details, credited.peers⟩

theorem published_address_vouched : ∃ t entry,
    (discovery (.counting (.onePublished [namedAddress])) (numberedKeys 2) (.listed two_distinct)).replay
      publishedAnswer = some t ∧
    t.authorityToDetails.lookup (numberedKey 0) = some entry ∧ namedAddress ∈ entry ∧
    ∃ value peerId, Heard publishedAnswer value ∧
      Vouches (.onePublished [namedAddress]) value (numberedKey 0) peerId namedAddress := by
  obtain ⟨t, run⟩ := discovery_runs (.counting (.onePublished [namedAddress])) (numberedKeys 2)
    (.listed two_distinct) publishedAnswer
  have stored : ((discovery (.counting (.onePublished [namedAddress])) (numberedKeys 2)
      (.listed two_distinct)).replay publishedAnswer).map
        (fun t => t.authorityToDetails.lookup (numberedKey 0)) = some (some {namedAddress}) := by
    decide +kernel
  rw [run, Option.map_some, Option.some.injEq] at stored
  have member : namedAddress ∈ ({namedAddress} : Finset (LibP2pMultiaddr Nat)) := Finset.mem_singleton_self _
  exact ⟨t, _, run, stored, member, (stored_addresses_vouched run).1 _ _ stored _ member⟩

/-- Every record this turn stores lists addresses that end in a peer id only. -/
def StoresNamed (net : Network PeerId NodeKey QueryId) (s : AuthorityDiscovery PeerId QueryId)
    (l : Turn PeerId QueryId authorities) : Prop :=
  ∀ key value a peerId addresses, Receives key value l → Stores net s key value a peerId addresses →
    ∀ address ∈ listedAddresses net.codec value, (getPeerId address).isSome

/-- Every address kept for an authority ends in a peer id. -/
def DetailsNamed (s : AuthorityDiscovery PeerId QueryId) : Prop :=
  ∀ a entry, s.authorityToDetails.lookup a = some entry → ∀ address ∈ entry, (getPeerId address).isSome

theorem turn_details_named {l : Turn PeerId QueryId authorities} (named : DetailsNamed s)
    (stores : StoresNamed net s l) : DetailsNamed (s.turn net l) := by
  unfold DetailsNamed
  rcases turn_cases net s l with
    ⟨key, value, authority, peerId, addresses, received, decoded, stored⟩ | ⟨_, same⟩
  · have added : ∀ address ∈ addresses.toFinset, (getPeerId address).isSome := by
      intro address member
      obtain ⟨_, _, _, _, accepted⟩ := decoded_accepted decoded.2
      apply stores key value authority peerId addresses received decoded address
      rw [accepted.listed]
      exact List.mem_toFinset.mp member
    rw [stored.details]
    refine Finmap.upsert_all named (fun entry kept address member => ?_) added
    rcases Finset.mem_union.mp member with old | new
    · exact kept address old
    · exact added address new
  · rw [same.details]
    exact named

omit [DecidableEq QueryId] in
/-- Where all kept addresses are named, no report panics. -/
theorem report_not_panicked (named : DetailsNamed s) (order : List (LibP2pMultiaddr PeerId)) (a : PublicKey) :
    report order s a ≠ .panicked := by
  unfold report
  cases found : s.authorityToDetails.lookup a with
  | none => simp
  | some entry =>
    dsimp only
    cases walked : (HashSet.iterate order entry).head? with
    | none => simp
    | some address =>
      have member : address ∈ entry := (HashSet.mem_iterate.mp (List.mem_of_mem_head? walked)).2
      obtain ⟨peerId, named⟩ := Option.isSome_iff_exists.mp (named a entry found address member)
      simp only [named]
      cases s.peerInfo.lookup peerId <;> simp

/-- The addresses of an accepted record all name its peer exactly when each
listed one ends in a peer id, and while that holds of what a run stores, every
address kept is named and no report panics. -/
theorem accepted_addresses_named (net : Network PeerId NodeKey QueryId) :
    (∀ value a peerId addresses, decodeDhtRecord net.codec value a = .ok (peerId, addresses) →
      ((addresses ≠ [] ∧ ∀ address ∈ addresses, getPeerId address = some peerId) ↔
        ∀ address ∈ listedAddresses net.codec value, (getPeerId address).isSome)) ∧
    ∀ (authorities : List PublicKey) (first : Arrangement authorities)
      (turns : List (Turn PeerId QueryId authorities)) (t : AuthorityDiscovery PeerId QueryId),
      (discovery net authorities first).Meets (StoresNamed net) turns →
      (discovery net authorities first).replay turns = some t →
      (∀ a entry, t.authorityToDetails.lookup a = some entry →
        ∀ address ∈ entry, (getPeerId address).isSome) ∧
      ∀ order a, report order t a ≠ .panicked := by
  refine ⟨fun value a peerId addresses decoded => accepted_addresses_iff decoded, ?_⟩
  intro authorities first turns t meets run
  have start : DetailsNamed (discovery net authorities first).start := by
    have same : SameRecords (.new authorities) (discovery net authorities first).start := start_same
    unfold DetailsNamed
    rw [same.details]
    intro a entry found
    cases found
  have named : DetailsNamed t :=
    run_rule (fun s l held stores => turn_details_named held stores) start meets run
  exact ⟨named, fun order a => report_not_panicked named order a⟩

/-- A record with one address, which ends in its peer. -/
theorem named_record_reported :
    (([namedAddress] : List (LibP2pMultiaddr Nat)) ≠ [] ∧
      ∀ address ∈ [namedAddress], getPeerId address = some 7) ∧
    ∃ t, (discovery (.counting (.onePublished [namedAddress])) (numberedKeys 2) (.listed two_distinct)).replay
      publishedAnswer = some t ∧ ∀ order a, report order t a ≠ .panicked := by
  have named : ∀ value, ∀ address ∈ listedAddresses (.onePublished [namedAddress]) value,
      (getPeerId address).isSome := by
    intro value address member
    by_cases published : value = [1]
    · subst published
      revert address
      decide +kernel
    · simp [listedAddresses, RecordCodec.onePublished, published] at member
  obtain ⟨decoding, running⟩ := accepted_addresses_named (.counting (.onePublished [namedAddress]))
  obtain ⟨t, run⟩ := discovery_runs (.counting (.onePublished [namedAddress])) (numberedKeys 2)
    (.listed two_distinct) publishedAnswer
  have meets : (discovery (.counting (.onePublished [namedAddress])) (numberedKeys 2)
      (.listed two_distinct)).Meets (StoresNamed (.counting (.onePublished [namedAddress]))) publishedAnswer :=
    ⟨fun _ value _ _ _ _ _ => named value, fun _ _ => trivial⟩
  exact ⟨(decoding [1] (numberedKey 0) 7 [namedAddress] rfl).mpr (named [1]), t, run,
    (running _ _ _ t meets run).2⟩

/-- A second address without a peer id passes the decoder, and the report that
meets it first panics. -/
theorem bare_address_panics :
    decodeDhtRecord (.onePublished [namedAddress, bareAddress]) [1] (numberedKey 0) =
      .ok (7, [namedAddress, bareAddress]) ∧
    getPeerId bareAddress = none ∧
    ∃ t, (discovery (.counting (.onePublished [namedAddress, bareAddress])) (numberedKeys 2)
      (.listed two_distinct)).replay publishedAnswer = some t ∧
      report [bareAddress, namedAddress] t (numberedKey 0) = .panicked := by
  refine ⟨rfl, rfl, ?_⟩
  have panicked : ((discovery (.counting (.onePublished [namedAddress, bareAddress])) (numberedKeys 2)
      (.listed two_distinct)).replay publishedAnswer).map
        (fun t => report [bareAddress, namedAddress] t (numberedKey 0)) = some .panicked := by
    decide +kernel
  exact Option.map_eq_some_iff.mp panicked

end Runs

end AuthorityDiscovery
end Subp2pExplorer.Authorities
