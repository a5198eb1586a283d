import Subp2pExplorer.Authorities.Records

/-! The peers of the discovery. Each record stored is kept twice, for its
authority and for its peer, and the two tables are never compared; the closest
peers are searched for by queries of their own, next to those for records. -/
namespace Subp2pExplorer.Authorities
open Lib Subp2pExplorer.Types
namespace AuthorityDiscovery

section Tables
variable {PeerId QueryId : Type} [DecidableEq PeerId] {s s' : AuthorityDiscovery PeerId QueryId}

/-- The addresses kept for an authority. -/
def authorityAddresses (s : AuthorityDiscovery PeerId QueryId) (a : PublicKey) : Finset (LibP2pMultiaddr PeerId) :=
  (s.authorityToDetails.lookup a).getD ∅

/-- The addresses kept for a peer. -/
def peerAddresses (s : AuthorityDiscovery PeerId QueryId) (p : PeerId) : Finset (LibP2pMultiaddr PeerId) :=
  ((s.peerDetails.lookup p).map PeerDetails.addresses).getD ∅

/-- The two tables keep the same addresses: each under the peer it names, and
each peer with the authority of a record that named it. -/
structure Mirrored (s : AuthorityDiscovery PeerId QueryId) : Prop where
  kept : ∀ address, (∃ a, address ∈ s.authorityAddresses a) ↔ ∃ p, address ∈ s.peerAddresses p
  named : ∀ p p' address, address ∈ s.peerAddresses p → getPeerId address = some p' → p' = p
  credited : ∀ p entry, s.peerDetails.lookup p = some entry →
    ∃ address ∈ entry.addresses, getPeerId address = some p ∧ address ∈ s.authorityAddresses entry.authorityId

theorem same_addresses (same : SameRecords s s') :
    s'.authorityAddresses = s.authorityAddresses ∧ s'.peerAddresses = s.peerAddresses := by
  unfold authorityAddresses peerAddresses
  rw [same.details, same.peers]
  exact ⟨rfl, rfl⟩

theorem same_mirrored (same : SameRecords s s') (mirrored : Mirrored s) : Mirrored s' := by
  obtain ⟨details, peers⟩ := same_addresses same
  constructor
  · rw [details, peers]
    exact mirrored.kept
  · rw [peers]
    exact mirrored.named
  · rw [same.peers, details]
    exact mirrored.credited

variable {authority : PublicKey} {peerId : PeerId} {addresses : List (LibP2pMultiaddr PeerId)}

theorem mem_authority_stored (stored : Stored authority peerId addresses s s') (a : PublicKey)
    (address : LibP2pMultiaddr PeerId) :
    address ∈ s'.authorityAddresses a ↔ address ∈ s.authorityAddresses a ∨ a = authority ∧ address ∈ addresses := by
  unfold authorityAddresses
  rw [stored.details]
  by_cases same : a = authority
  · subst same
    rw [Finmap.lookup_upsert]
    cases s.authorityToDetails.lookup a <;> simp
  · rw [Finmap.lookup_upsert_ne _ _ _ same]
    simp [same]

theorem mem_peer_stored (stored : Stored authority peerId addresses s s') (p : PeerId)
    (address : LibP2pMultiaddr PeerId) :
    address ∈ s'.peerAddresses p ↔ address ∈ s.peerAddresses p ∨ p = peerId ∧ address ∈ addresses := by
  unfold peerAddresses
  rw [stored.peers]
  by_cases same : p = peerId
  · subst same
    rw [Finmap.lookup_upsert]
    cases s.peerDetails.lookup p <;> simp
  · rw [Finmap.lookup_upsert_ne _ _ _ same]
    simp [same]

/-- An accepted record lists an address that names its peer. -/
theorem decoded_names {NodeKey : Type} {codec : RecordCodec PeerId NodeKey} {value : Bytes}
    (decoded : decodeDhtRecord codec value authority = .ok (peerId, addresses)) :
    ∃ address ∈ addresses, getPeerId address = some peerId := by
  obtain ⟨_, _, _, _, accepted⟩ := decoded_accepted decoded
  have only : peerId ∈ (addresses.filterMap getPeerId).dedup := by
    rw [accepted.one_peer]
    exact List.mem_singleton_self _
  exact List.mem_filterMap.mp (List.mem_dedup.mp only)

theorem stored_mirrored {NodeKey : Type} {codec : RecordCodec PeerId NodeKey} {value : Bytes}
    (decoded : decodeDhtRecord codec value authority = .ok (peerId, addresses))
    (stored : Stored authority peerId addresses s s') (mirrored : Mirrored s) : Mirrored s' := by
  have held := mem_authority_stored stored
  have kept := mem_peer_stored stored
  constructor
  · intro address
    simp only [held, kept, exists_or, mirrored.kept address]
    simp
  · intro p p' address member named
    rcases (kept p address).mp member with before | ⟨same, listed⟩
    · exact mirrored.named p p' address before named
    · exact (accepted_peer decoded listed named).trans same.symm
  · intro p entry found
    rw [stored.peers] at found
    by_cases same : p = peerId
    · subst same
      rw [Finmap.lookup_upsert] at found
      cases before : s.peerDetails.lookup p with
      | none =>
        rw [before] at found
        cases found
        obtain ⟨address, listed, named⟩ := decoded_names decoded
        exact ⟨address, List.mem_toFinset.mpr listed, named, (held _ _).mpr (.inr ⟨rfl, listed⟩)⟩
      | some old =>
        rw [before] at found
        cases found
        obtain ⟨address, member, named, credited⟩ := mirrored.credited p old before
        exact ⟨address, Finset.mem_union_left _ member, named, (held _ _).mpr (.inl credited)⟩
    · rw [Finmap.lookup_upsert_ne _ _ _ same] at found
      obtain ⟨address, member, named, credited⟩ := mirrored.credited p entry found
      exact ⟨address, member, named, (held _ _).mpr (.inl credited)⟩

/-- What a state keeps is still kept in another, with the same credits. -/
structure StillKept (s s' : AuthorityDiscovery PeerId QueryId) : Prop where
  authorities : ∀ a, s.authorityAddresses a ⊆ s'.authorityAddresses a
  peers : ∀ p entry, s.peerDetails.lookup p = some entry → ∃ entry', s'.peerDetails.lookup p = some entry' ∧
    entry'.authorityId = entry.authorityId ∧ entry.addresses ⊆ entry'.addresses

theorem still_kept_trans {s₁ s₂ s₃ : AuthorityDiscovery PeerId QueryId} (first : StillKept s₁ s₂)
    (second : StillKept s₂ s₃) : StillKept s₁ s₃ where
  authorities := fun a => (first.authorities a).trans (second.authorities a)
  peers := fun p entry found => by
    obtain ⟨entry', found', credit, kept⟩ := first.peers p entry found
    obtain ⟨entry'', found'', credit', kept'⟩ := second.peers p entry' found'
    exact ⟨entry'', found'', credit'.trans credit, kept.trans kept'⟩

theorem same_still_kept (same : SameRecords s s') : StillKept s s' where
  authorities := fun a => by rw [(same_addresses same).1]
  peers := fun p entry found => ⟨entry, by rw [same.peers, found], rfl, Finset.Subset.refl _⟩

theorem stored_still_kept (stored : Stored authority peerId addresses s s') : StillKept s s' where
  authorities := fun a address member => (mem_authority_stored stored a address).mpr (.inl member)
  peers := fun p entry found => by
    rw [stored.peers]
    by_cases same : p = peerId
    · subst same
      rw [Finmap.lookup_upsert, found]
      exact ⟨_, rfl, rfl, Finset.subset_union_left⟩
    · rw [Finmap.lookup_upsert_ne _ _ _ same]
      exact ⟨entry, found, rfl, Finset.Subset.refl _⟩

end Tables

section Runs
variable {PeerId NodeKey QueryId : Type} [DecidableEq PeerId] [DecidableEq QueryId]
  {net : Network PeerId NodeKey QueryId} {s t : AuthorityDiscovery PeerId QueryId}
  {authorities : List PublicKey} {first : Arrangement authorities}

theorem turn_mirrored (mirrored : Mirrored s) (l : Turn PeerId QueryId authorities) :
    Mirrored (s.turn net l) ∧ StillKept s (s.turn net l) := by
  rcases turn_cases net s l with ⟨_, _, _, _, _, _, stores, stored⟩ | ⟨_, same⟩
  · exact ⟨stored_mirrored stores.2 stored mirrored, stored_still_kept stored⟩
  · exact ⟨same_mirrored same mirrored, same_still_kept same⟩

theorem run_mirrored {turns : List (Turn PeerId QueryId authorities)}
    (run : (discovery net authorities first).replay turns = some t) : Mirrored t := by
  refine run_rule (fun s l held _ => (turn_mirrored held l).1) ?_ (Machine.meets_trivial turns) run
  refine same_mirrored start_same ⟨fun address => ?_, ?_, ?_⟩
  · simp [authorityAddresses, peerAddresses, new]
  · exact fun p p' address member => absurd member (Finset.notMem_empty address)
  · exact fun p entry found => nomatch found

theorem run_still_kept {turns : List (Turn PeerId QueryId authorities)} (mirrored : Mirrored s)
    (run : (discovery net authorities first).replayFrom s turns = some t) : StillKept s t := by
  induction turns generalizing s with
  | nil =>
    cases run
    exact same_still_kept .rfl
  | cons l turns ih =>
    obtain ⟨s', step, run⟩ := Machine.replay_from_cons.mp run
    cases step
    obtain ⟨held, kept⟩ := turn_mirrored mirrored l
    exact still_kept_trans kept (ih held run)

/-- At every boundary the two tables keep the same addresses, those that name a
peer under that peer, and the peers that have details are those named. However
the run goes on, no address is lost and no peer is credited anew. -/
theorem peers_mirror_authorities {earlier later : List (Turn PeerId QueryId authorities)}
    (run : (discovery net authorities first).replay earlier = some s)
    (goes : (discovery net authorities first).replayFrom s later = some t) :
    Mirrored s ∧ (∀ p, p ∈ s.peerDetails ↔
      ∃ a, ∃ address ∈ s.authorityAddresses a, getPeerId address = some p) ∧ StillKept s t := by
  have mirrored := run_mirrored run
  refine ⟨mirrored, fun p => ⟨fun member => ?_, ?_⟩, run_still_kept mirrored goes⟩
  · obtain ⟨entry, found⟩ := Finmap.mem_iff.mp member
    obtain ⟨address, _, named, credited⟩ := mirrored.credited p entry found
    exact ⟨entry.authorityId, address, credited, named⟩
  · rintro ⟨a, address, member, named⟩
    obtain ⟨p', kept⟩ := (mirrored.kept address).mp ⟨a, member⟩
    cases mirrored.named p' p address kept named
    rw [Finmap.mem_iff]
    unfold peerAddresses at kept
    cases found : s.peerDetails.lookup p with
    | none => simp [found] at kept
    | some entry => exact ⟨entry, rfl⟩

/-- A record with two addresses, one without a peer id, received twice. -/
theorem published_twice_mirrored : ∃ s t,
    (discovery (.counting (.onePublished [namedAddress, bareAddress])) (numberedKeys 2)
      (.listed (numbered_keys_distinct (by decide)))).replay publishedAnswer = some s ∧
    (discovery (.counting (.onePublished [namedAddress, bareAddress])) (numberedKeys 2)
      (.listed (numbered_keys_distinct (by decide)))).replayFrom s publishedAnswer = some t ∧
    s.peerAddresses 7 = {namedAddress, bareAddress} ∧
    Mirrored s ∧ (∀ p, p ∈ s.peerDetails ↔
      ∃ a, ∃ address ∈ s.authorityAddresses a, getPeerId address = some p) ∧ StillKept s t := by
  have ran : ((discovery (.counting (.onePublished [namedAddress, bareAddress])) (numberedKeys 2)
      (.listed (numbered_keys_distinct (by decide)))).replay publishedAnswer).map (·.peerAddresses 7) =
        some {namedAddress, bareAddress} := by
    decide +kernel
  obtain ⟨s, run, kept⟩ := Option.map_eq_some_iff.mp ran
  obtain ⟨t, goes⟩ : ∃ t, (discovery (.counting (.onePublished [namedAddress, bareAddress])) (numberedKeys 2)
      (.listed (numbered_keys_distinct (by decide)))).replayFrom s publishedAnswer = some t := ⟨_, rfl⟩
  exact ⟨s, t, run, goes, kept, peers_mirror_authorities run goes⟩

end Runs

section Searches
variable {PeerId NodeKey QueryId : Type} {net : Network PeerId NodeKey QueryId}
  {s s' : AuthorityDiscovery PeerId QueryId} {authorities : List PublicKey} {answers : List QueryId}

/-- What the queries for closest peers are judged by. -/
def searches (s : AuthorityDiscovery PeerId QueryId) : Finset QueryId × Nat × List Issue :=
  (s.queriesDiscovery, s.swarm.started, s.issued)

/-- The queries for closest peers that were tracked and answered so far, and
those that still are tracked, make up all that was started but not for a record. -/
structure Searched (net : Network PeerId NodeKey QueryId) (answers : List QueryId)
    (s : AuthorityDiscovery PeerId QueryId) : Prop where
  tracked : ∀ id ∈ s.queriesDiscovery, ∃ n < s.swarm.started, net.queryId n = id
  past : ∀ id ∈ answers, ∃ n < s.swarm.started, net.queryId n = id
  once : answers.Nodup
  apart : ∀ id ∈ answers, id ∉ s.queriesDiscovery
  total : s.swarm.started = s.issued.length + s.queriesDiscovery.card + answers.length

theorem searched_congr (same : s'.searches = s.searches) (searched : Searched net answers s) :
    Searched net answers s' := by
  obtain ⟨discovery, rest⟩ := Prod.mk.inj same
  obtain ⟨started, issued⟩ := Prod.mk.inj rest
  constructor
  · rw [discovery, started]
    exact searched.tracked
  · rw [started]
    exact searched.past
  · exact searched.once
  · rw [discovery]
    exact searched.apart
  · rw [discovery, started, issued]
    exact searched.total

variable [DecidableEq QueryId]

theorem searched_issue (searched : Searched net answers s) (a : PublicKey) :
    Searched net answers (queryDhtRecord net s a) where
  tracked := fun id member => by
    obtain ⟨n, before, same⟩ := searched.tracked id member
    exact ⟨n, Nat.lt_succ_of_lt before, same⟩
  past := fun id member => by
    obtain ⟨n, before, same⟩ := searched.past id member
    exact ⟨n, Nat.lt_succ_of_lt before, same⟩
  once := searched.once
  apart := searched.apart
  total := by
    have total := searched.total
    simp only [queryDhtRecord, List.length_append, List.length_singleton]
    omega

omit [DecidableEq QueryId] in
/-- The query started next is neither tracked nor answered. -/
theorem next_search_fresh (searched : Searched net answers s) :
    net.queryId s.swarm.started ∉ s.queriesDiscovery ∧ net.queryId s.swarm.started ∉ answers := by
  constructor
  · intro member
    obtain ⟨n, before, same⟩ := searched.tracked _ member
    exact before.ne (net.fresh same)
  · intro member
    obtain ⟨n, before, same⟩ := searched.past _ member
    exact before.ne (net.fresh same)

theorem closest_card (searched : Searched net answers s) :
    (getClosestPeers net s).queriesDiscovery.card = s.queriesDiscovery.card + 1 :=
  Finset.card_insert_of_notMem (next_search_fresh searched).1

theorem searched_closest (searched : Searched net answers s) : Searched net answers (getClosestPeers net s) where
  tracked := fun id member => by
    rcases Finset.mem_insert.mp member with same | before
    · exact ⟨s.swarm.started, Nat.lt_succ_self _, same.symm⟩
    · obtain ⟨n, earlier, same⟩ := searched.tracked id before
      exact ⟨n, Nat.lt_succ_of_lt earlier, same⟩
  past := fun id member => by
    obtain ⟨n, before, same⟩ := searched.past id member
    exact ⟨n, Nat.lt_succ_of_lt before, same⟩
  once := searched.once
  apart := fun id member tracked => by
    rcases Finset.mem_insert.mp tracked with same | before
    · exact (next_search_fresh searched).2 (same ▸ member)
    · exact searched.apart id member before
  total := by
    have total := searched.total
    rw [closest_card searched]
    show s.swarm.started + 1 = s.issued.length + (s.queriesDiscovery.card + 1) + answers.length
    omega

/-- A refill fills the slots for closest peers. -/
theorem searched_refill (searched : Searched net answers s) (within : s.queriesDiscovery.card ≤ maxDiscoveryQueries) :
    Searched net answers (queryPeerInfo net s) ∧
      (queryPeerInfo net s).queriesDiscovery.card = maxDiscoveryQueries := by
  have rounds : ∀ n, Searched net answers ((getClosestPeers net)^[n] s) ∧
      ((getClosestPeers net)^[n] s).queriesDiscovery.card = s.queriesDiscovery.card + n := by
    intro n
    induction n with
    | zero => exact ⟨searched, rfl⟩
    | succ n ih =>
      rw [Function.iterate_succ_apply']
      exact ⟨searched_closest ih.1, by rw [closest_card ih.1, ih.2, Nat.add_assoc]⟩
  unfold queryPeerInfo
  split
  · obtain ⟨later, count⟩ := rounds (maxDiscoveryQueries - s.queriesDiscovery.card)
    exact ⟨later, by omega⟩
  · exact ⟨searched, by omega⟩

/-- Where the slots are full, a refill starts nothing. -/
theorem refill_full (full : s.queriesDiscovery.card = maxDiscoveryQueries) : queryPeerInfo net s = s :=
  if_neg (by omega)

theorem records_searched (searched : Searched net answers s) (todo : List PublicKey) :
    Searched net answers (queryDhtRecords net s todo) ∧
      (queryDhtRecords net s todo).queriesDiscovery = s.queriesDiscovery := by
  induction todo generalizing s with
  | nil => exact ⟨searched, rfl⟩
  | cons a rest ih => exact ih (searched_issue searched a)

theorem initial_searched (searched : Searched net answers s) (todo : List PublicKey) :
    Searched net answers (queryInitial net todo s) ∧
      (queryInitial net todo s).queriesDiscovery = s.queriesDiscovery := by
  induction todo generalizing s with
  | nil => exact ⟨searched, rfl⟩
  | cons a rest ih =>
    unfold queryInitial
    split
    · exact ih (searched_congr (s := queryDhtRecord net s a) rfl (searched_issue searched a))
    · exact ⟨searched, rfl⟩

/-- Queries for records leave the others alone, so an advance fills the slots
for closest peers, and does not touch them where they are full. -/
theorem advance_searched (searched : Searched net answers s) (order : List PublicKey)
    (within : s.queriesDiscovery.card ≤ maxDiscoveryQueries) :
    Searched net answers (advanceDhtQueries net order s) ∧
      (advanceDhtQueries net order s).queriesDiscovery.card = maxDiscoveryQueries ∧
      (s.queriesDiscovery.card = maxDiscoveryQueries →
        (advanceDhtQueries net order s).queriesDiscovery = s.queriesDiscovery) := by
  unfold advanceDhtQueries
  obtain ⟨passed, same⟩ := initial_searched searched (s.authorities.drop s.queryIndex)
  generalize queryInitial net (s.authorities.drop s.queryIndex) s = s₁ at passed same ⊢
  have filled : Searched net answers (queryBackfill net order s₁) ∧
      (queryBackfill net order s₁).queriesDiscovery = s₁.queriesDiscovery := by
    unfold queryBackfill
    split
    · exact records_searched passed _
    · exact ⟨passed, rfl⟩
  obtain ⟨asked, same'⟩ := filled
  generalize queryBackfill net order s₁ = s₂ at asked same' ⊢
  rw [← same, ← same'] at within ⊢
  obtain ⟨refilled, count⟩ := searched_refill asked within
  exact ⟨refilled, count, fun full => by rw [refill_full full]⟩

theorem resubmit_searched (searched : Searched net answers s) (shuffle : List PublicKey)
    (full : s.queriesDiscovery.card = maxDiscoveryQueries) :
    Searched net answers (resubmitRemainingDhtQueries net shuffle s) ∧
      (resubmitRemainingDhtQueries net shuffle s).queriesDiscovery = s.queriesDiscovery := by
  have cleared : Searched net answers { s with queries := ∅ } := searched_congr (s := s) rfl searched
  unfold resubmitRemainingDhtQueries
  dsimp only
  obtain ⟨asked, same⟩ := records_searched cleared
    ((HashSet.iterate shuffle s.remainingAuthorities).take maxQueries)
  split
  · rw [refill_full (same.symm ▸ full)]
    exact ⟨asked, same⟩
  · exact ⟨asked, same⟩

variable [DecidableEq PeerId]

omit [DecidableEq QueryId] in
theorem store_record_searches (dial : LibP2pMultiaddr PeerId → Option ErrorText) (authority : PublicKey)
    (peerId : PeerId) (addresses : List (LibP2pMultiaddr PeerId)) :
    (storeRecord dial authority peerId addresses s).searches = s.searches := by
  have dialed : ∀ (s : AuthorityDiscovery PeerId QueryId) address, (dialAddress dial s address).searches = s.searches := by
    intro s address
    unfold dialAddress
    split <;> rfl
  exact fold_keeps searches dialed addresses _

variable (net) in
/-- An answer for a record leaves the searches alone until the queries advance. -/
theorem answered_searches (dial : LibP2pMultiaddr PeerId → Option ErrorText) (id : QueryId) (last : Bool)
    (result : GetRecordResult) : (answered net dial id last result s).searches = s.searches := by
  have freed : ({ deliver (.getRecord id last result) s with
      queries := (deliver (.getRecord id last result) s).queries.erase id } :
        AuthorityDiscovery PeerId QueryId).searches = s.searches := by
    cases last <;> rfl
  cases result with
  | finished => exact freed
  | failed => exact freed
  | foundRecord key value =>
    refine Eq.trans ?_ freed
    unfold answered
    dsimp only
    unfold handleRecord
    split
    · rfl
    · split
      · rfl
      · exact store_record_searches _ _ _ _

omit [DecidableEq QueryId] in
theorem record_outcome_searches (address : LibP2pMultiaddr PeerId) (outcome : DialOutcome) :
    (recordOutcome address outcome s).searches = s.searches := by
  unfold recordOutcome
  split <;> rfl

omit [DecidableEq QueryId] in
variable (net) in
theorem dial_error_searches (error : DialError PeerId) : (handleDialError net error s).searches = s.searches := by
  cases error with
  | transport attempts => exact fold_keeps searches (fun _ _ => record_outcome_searches _ _) attempts s
  | wrongPeerId obtained address => exact record_outcome_searches _ _
  | localPeerId address => exact record_outcome_searches _ _
  | denied => rfl
  | other => rfl

/-- The query for closest peers that a turn answers, where it is tracked. -/
def closestAnswered (s : AuthorityDiscovery PeerId QueryId) (l : Turn PeerId QueryId authorities)
    (_ : AuthorityDiscovery PeerId QueryId) : List QueryId :=
  match l with
  | .swarm (.getClosestPeers id) _ _ => if id ∈ s.queriesDiscovery then [id] else []
  | _ => []

omit [DecidableEq PeerId] in
/-- A tracked query that is answered frees its slot. -/
theorem searched_answer (searched : Searched net answers s) {id : QueryId} (tracked : id ∈ s.queriesDiscovery) :
    Searched net (answers ++ [id]) { s with queriesDiscovery := s.queriesDiscovery.erase id } where
  tracked := fun other member => searched.tracked other (Finset.mem_of_mem_erase member)
  past := fun other member => by
    rcases List.mem_append.mp member with before | last
    · exact searched.past other before
    · exact List.mem_singleton.mp last ▸ searched.tracked id tracked
  once := by
    refine List.nodup_append.mpr ⟨searched.once, List.nodup_singleton id, fun other before last member same => ?_⟩
    rw [List.mem_singleton.mp member] at same
    exact searched.apart other before (same ▸ tracked)
  apart := fun other member still => by
    rcases List.mem_append.mp member with before | last
    · exact searched.apart other before (Finset.mem_of_mem_erase still)
    · exact Finset.notMem_erase id _ (List.mem_singleton.mp last ▸ still)
  total := by
    have total := searched.total
    have occupied := Finset.card_pos.mpr ⟨id, tracked⟩
    rw [List.length_append, List.length_singleton, Finset.card_erase_of_mem tracked]
    show s.swarm.started = s.issued.length + (s.queriesDiscovery.card - 1) + (answers.length + 1)
    omega

/-- From full slots a turn leads to full slots, and they change only for an
answer. -/
theorem turn_searched (searched : Searched net answers s) (full : s.queriesDiscovery.card = maxDiscoveryQueries)
    (l : Turn PeerId QueryId authorities) :
    Searched net (answers ++ closestAnswered s l (s.turn net l)) (s.turn net l) ∧
      (s.turn net l).queriesDiscovery.card = maxDiscoveryQueries ∧
      (closestAnswered s l (s.turn net l) = [] → (s.turn net l).queriesDiscovery = s.queriesDiscovery) := by
  have quiet : ∀ {s' : AuthorityDiscovery PeerId QueryId}, Searched net answers s' →
      s'.queriesDiscovery = s.queriesDiscovery → Searched net (answers ++ []) s' ∧
        s'.queriesDiscovery.card = maxDiscoveryQueries ∧
        (([] : List QueryId) = [] → s'.queriesDiscovery = s.queriesDiscovery) := by
    intro s' later same
    rw [List.append_nil]
    exact ⟨later, same ▸ full, fun _ => same⟩
  have untouched : ∀ {s' : AuthorityDiscovery PeerId QueryId} (_ : s'.searches = s.searches),
      Searched net answers s' ∧ s'.queriesDiscovery = s.queriesDiscovery :=
    fun same => ⟨searched_congr same searched, congrArg Prod.fst same⟩
  cases l with
  | resubmit shuffle =>
    obtain ⟨later, same⟩ := resubmit_searched searched shuffle.order full
    exact quiet later same
  | swarm event order dial =>
    cases event with
    | getRecord id last result =>
      obtain ⟨freed, slots⟩ := untouched (answered_searches net dial id last result)
      obtain ⟨later, _, kept⟩ := advance_searched freed order.order (slots ▸ full.le)
      have turned : s.turn net (.swarm (.getRecord id last result) order dial) =
          advanceDhtQueries net order.order (answered net dial id last result s) := by
        cases result <;> rfl
      rw [turned]
      exact quiet later ((kept (slots.symm ▸ full)).trans slots)
    | getClosestPeers id =>
      have turned : s.turn net (.swarm (.getClosestPeers id) order dial) =
          queryPeerInfo net { s with queriesDiscovery := s.queriesDiscovery.erase id } := rfl
      by_cases tracked : id ∈ s.queriesDiscovery
      · have within : (s.queriesDiscovery.erase id).card ≤ maxDiscoveryQueries := Finset.card_erase_le.trans full.le
        obtain ⟨later, count⟩ := searched_refill (searched_answer searched tracked) within
        rw [turned, closestAnswered, if_pos tracked]
        exact ⟨later, count, nofun⟩
      · have same : s.turn net (.swarm (.getClosestPeers id) order dial) = s := by
          rw [turned, Finset.erase_eq_of_notMem tracked]
          exact refill_full full
        rw [same, closestAnswered, if_neg tracked]
        exact quiet searched rfl
    | identified peerId info =>
      have told : (s.turn net (.swarm (.identified peerId info) order dial)).searches = s.searches := rfl
      obtain ⟨later, same⟩ := untouched told
      exact quiet later same
    | connectionEstablished endpoint =>
      cases endpoint with
      | dialer address =>
        obtain ⟨later, same⟩ := untouched (record_outcome_searches address .success)
        exact quiet later same
      | listener => exact quiet searched rfl
    | outgoingConnectionError error =>
      obtain ⟨later, same⟩ := untouched (dial_error_searches net error)
      exact quiet later same
    | other => exact quiet searched rfl

/-- At every boundary all slots for closest peers are taken, each by a query of
its own. One is freed and taken again by each first answer of a tracked query
and by nothing else, a resubmit included: what was started are the queries for
records, the first ones of these slots, and one for each of these answers. -/
theorem closest_queries_full {first : Arrangement authorities} {turns : List (Turn PeerId QueryId authorities)}
    {t : AuthorityDiscovery PeerId QueryId} (run : (discovery net authorities first).replay turns = some t) :
    let answers := (discovery net authorities first).trace closestAnswered turns
    t.queriesDiscovery.card = maxDiscoveryQueries ∧
      t.swarm.started = t.issued.length + maxDiscoveryQueries + answers.length ∧
      answers.Nodup ∧ (∀ id ∈ answers, id ∉ t.queriesDiscovery) ∧
      ∀ l : Turn PeerId QueryId authorities, closestAnswered t l (t.turn net l) = [] →
        (t.turn net l).queriesDiscovery = t.queriesDiscovery := by
  have held : Searched net ((discovery net authorities first).trace closestAnswered turns) t ∧
      t.queriesDiscovery.card = maxDiscoveryQueries := by
    refine Machine.trace_invariant (I := fun answers s => Searched net answers s ∧
      s.queriesDiscovery.card = maxDiscoveryQueries) (fun answers s l s' held step => ?_) ?_ run
    · cases step
      obtain ⟨later, count, _⟩ := turn_searched held.1 held.2 l
      exact ⟨later, count⟩
    · have none : Searched net [] (.new authorities : AuthorityDiscovery PeerId QueryId) :=
        ⟨nofun, nofun, List.nodup_nil, nofun, rfl⟩
      obtain ⟨searched, count, _⟩ := advance_searched none first.order (Nat.zero_le _)
      exact ⟨searched, count⟩
  obtain ⟨searched, full⟩ := held
  have total := searched.total
  rw [full] at total
  exact ⟨full, total, searched.once, searched.apart, fun l => (turn_searched searched full l).2.2⟩

def answeredTwice : List (Turn Nat Nat (numberedKeys 2)) :=
  [.swarm (.getClosestPeers 5) (.listed (numbered_keys_distinct (by decide))) fun _ => none,
    .swarm (.getClosestPeers 5) (.listed (numbered_keys_distinct (by decide))) fun _ => none]

/-- A query for closest peers that is answered twice is replaced once. -/
theorem answered_twice_replaced_once : ∃ t,
    (discovery (.counting (.onePublished [])) (numberedKeys 2)
      (.listed (numbered_keys_distinct (by decide)))).replay answeredTwice = some t ∧
    (discovery (.counting (.onePublished [])) (numberedKeys 2)
      (.listed (numbered_keys_distinct (by decide)))).trace closestAnswered answeredTwice = [5] ∧
    t.queriesDiscovery.card = maxDiscoveryQueries ∧
    t.swarm.started = t.issued.length + maxDiscoveryQueries + [5].length := by
  obtain ⟨t, run⟩ := discovery_runs (.counting (.onePublished [])) (numberedKeys 2)
    (.listed (numbered_keys_distinct (by decide))) answeredTwice
  have once : (discovery (.counting (.onePublished [])) (numberedKeys 2)
      (.listed (numbered_keys_distinct (by decide)))).trace closestAnswered answeredTwice = [5] := by
    decide +kernel
  obtain ⟨full, total, _⟩ := closest_queries_full run
  rw [once] at total
  exact ⟨t, run, once, full, total⟩

end Searches
end AuthorityDiscovery
end Subp2pExplorer.Authorities
