import Mathlib.Algebra.BigOperators.Group.Finset.Sigma
import Subp2pExplorer.Check.Discovered
import Subp2pExplorer.Check.Stats
import Subp2pExplorer.Identity.Ss58

/-! The results of a check per authority, and their totals against those that
were printed when the discovery ended. The first count an address for each
authority that has it, the second count outcomes, of which an address has one. -/
namespace Subp2pExplorer.Check
open Lib Authorities Authorities.AuthorityDiscovery Identity Subp2pExplorer.Types

/-- What the identity chain told, and how keys and peers are shown. -/
structure Naming (PeerId : Type) where
  names : Map PublicKey String
  stashAccounts : Map PublicKey PublicKey
  ss58 : Ss58Codec
  version : UInt16
  showPeer : PeerId → String

/-- How the check goes: the probes, the order in which they complete, and the
order in which the addresses of an authority are walked. -/
structure Course (PeerId : Type) where
  probe : Probe PeerId
  completion : Completion PeerId
  walk : PublicKey → List (LibP2pMultiaddr PeerId)

section Results
variable {PeerId QueryId : Type} [DecidableEq PeerId] (naming : Naming PeerId) (course : Course PeerId)
  (s : AuthorityDiscovery PeerId QueryId)

/-- Every address of every authority, with the index of the authority. -/
def pendingChecks (authorities : List PublicKey) : List (Nat × LibP2pMultiaddr PeerId × Bool) :=
  authorities.zipIdx.flatMap fun entry =>
    match s.authorityToDetails.lookup entry.1 with
    | none => []
    | some addrs => (HashSet.iterate (course.walk entry.1) addrs).map fun addr =>
        (entry.2, addr, isPublicAddress course.probe addr)

/-- A check with the libp2p dial outcome of its address. -/
def enrich (dialOutcomes : Map (LibP2pMultiaddr PeerId) DialOutcome) (check : AddressCheck PeerId) :
    AddressCheck PeerId :=
  match check.fullAddress with
  | some addr => { check with dialOutcome := dialOutcomes.lookup addr }
  | none => check

/-- The peer of an authority, from the first address that names one. -/
def peerOf (authority : PublicKey) : Option PeerId :=
  (s.authorityToDetails.lookup authority).bind fun addrs =>
    (HashSet.iterate (course.walk authority) addrs).findSome? getPeerId

/-- The result of one authority, with the checks of its addresses. -/
def authorityResult (authority : PublicKey) (checks : List (AddressCheck PeerId)) : AuthorityResult PeerId :=
  let shown : AuthorityResult PeerId :=
    { authoritySs58 := toSs58 naming.ss58 authority naming.version
      stashSs58 := (naming.stashAccounts.lookup authority).map fun stash => toSs58 naming.ss58 stash naming.version
      identityName := naming.names.lookup authority
      peerId := none
      agentVersion := none
      hasDhtRecord := false
      addresses := [] }
  match s.authorityToDetails.lookup authority with
  | none => shown
  | some _ =>
    let peerId := peerOf course s authority
    { shown with
      peerId := peerId.map naming.showPeer
      agentVersion := (peerId.bind fun pid => s.peerInfo.lookup pid).map Info.agentVersion
      hasDhtRecord := true
      addresses := checks }

/-- The loop that builds the results: the checks of an index are taken out
where its authority has a record. -/
def buildResults : List (PublicKey × Nat) → Map Nat (List (AddressCheck PeerId)) → List (AuthorityResult PeerId)
  | [], _ => []
  | (authority, idx) :: rest, checkResults =>
    match s.authorityToDetails.lookup authority with
    | none => authorityResult naming course s authority [] :: buildResults rest checkResults
    | some _ =>
      authorityResult naming course s authority ((checkResults.lookup idx).getD []) ::
        buildResults rest (checkResults.erase idx)

/-- The results `check_authorities` ends with. -/
def checkResults (authorities : List PublicKey) : List (AuthorityResult PeerId) :=
  buildResults naming course s authorities.zipIdx
    ((runConnectivityChecks course.probe course.completion (pendingChecks course s authorities)).mapValues
      (List.map (enrich s.dialOutcomes)))

/-- The records printed when the discovery ended. -/
def dhtCount : Nat := s.authorityToDetails.size

/-- The identified authorities printed when the discovery ended. -/
def identifiedAuthorities (authorities : List PublicKey) : Nat :=
  authorities.countP fun authority => (peerOf course s authority).any fun pid => decide (pid ∈ s.peerInfo)

/-- The addresses of an authority, none where it has no record. -/
def addressesOf (authority : PublicKey) : Finset (LibP2pMultiaddr PeerId) :=
  (s.authorityToDetails.lookup authority).getD ∅

end Results

section Regrouping
variable {PeerId QueryId : Type} [DecidableEq PeerId] {naming : Naming PeerId} {course : Course PeerId}
  {s : AuthorityDiscovery PeerId QueryId} {authorities : List PublicKey}

/-- Each index is looked up once, so taking its checks out takes them from no
other authority. -/
theorem build_results_eq {entries : List (PublicKey × Nat)} (distinct : (entries.map Prod.snd).Nodup)
    (checked : Map Nat (List (AddressCheck PeerId))) :
    buildResults naming course s entries checked =
      entries.map fun entry => authorityResult naming course s entry.1 ((checked.lookup entry.2).getD []) := by
  induction entries generalizing checked with
  | nil => rfl
  | cons entry rest ih =>
    obtain ⟨authority, idx⟩ := entry
    obtain ⟨apart, distinctRest⟩ := List.nodup_cons.mp distinct
    rw [buildResults, List.map_cons]
    cases details : s.authorityToDetails.lookup authority with
    | none =>
      have silent : authorityResult naming course s authority [] =
          authorityResult naming course s authority ((checked.lookup idx).getD []) := by
        unfold authorityResult
        rw [details]
      rw [ih distinctRest, silent]
    | some entry =>
      dsimp only
      rw [ih distinctRest]
      congr 1
      refine List.map_congr_left fun other member => ?_
      have other_index : other.2 ≠ idx := fun same => apart (List.mem_map.mpr ⟨other, member, same⟩)
      rw [Finmap.lookup_erase_ne other_index]

theorem zip_idx_distinct {α : Type} (l : List α) : (l.zipIdx.map Prod.snd).Nodup := by
  rw [List.zipIdx_map_snd]
  exact List.nodup_range' ..

/-- What is listed under an index is what its entry lists. -/
theorem listed_under {β : Type} {entries : List (PublicKey × Nat)} {f : PublicKey × Nat → List (Nat × β)}
    (own : ∀ entry, ∀ listed ∈ f entry, listed.1 = entry.2) (distinct : (entries.map Prod.snd).Nodup)
    {entry : PublicKey × Nat} (member : entry ∈ entries) :
    (entries.flatMap f).filter (·.1 = entry.2) = f entry := by
  induction entries with
  | nil => cases member
  | cons first rest ih =>
    obtain ⟨apart, distinctRest⟩ := List.nodup_cons.mp distinct
    have kept : ∀ other, other.2 = entry.2 → (f other).filter (·.1 = entry.2) = f other := by
      intro other same
      refine List.filter_eq_self.mpr fun listed inside => ?_
      exact decide_eq_true ((own other listed inside).trans same)
    have dropped : ∀ other, other.2 ≠ entry.2 → (f other).filter (·.1 = entry.2) = [] := by
      intro other ne
      refine List.filter_eq_nil_iff.mpr fun listed inside same => ne ?_
      rw [← own other listed inside]
      exact of_decide_eq_true same
    rw [List.flatMap_cons, List.filter_append]
    rcases List.mem_cons.mp member with rfl | later
    · have none : (rest.flatMap f).filter (·.1 = entry.2) = [] := by
        rw [List.filter_flatMap, List.flatMap_eq_nil_iff]
        exact fun other inside => dropped other fun same => apart (List.mem_map.mpr ⟨other, inside, same⟩)
      rw [kept entry rfl, none, List.append_nil]
    · have ne : first.2 ≠ entry.2 := fun same => apart (List.mem_map.mpr ⟨entry, later, same.symm⟩)
      rw [dropped first ne, ih distinctRest later, List.nil_append]

/-- The orders in which the addresses of the authorities are walked are orders
of these. -/
def WalksAddresses (course : Course PeerId) (s : AuthorityDiscovery PeerId QueryId) : Prop :=
  ∀ a entry, s.authorityToDetails.lookup a = some entry → HashSet.Walks (course.walk a) entry

omit [DecidableEq PeerId] in
/-- The addresses of each authority as they are listed. -/
theorem listed_walks (probe : Probe PeerId) (completion : Completion PeerId) (s : AuthorityDiscovery PeerId QueryId) :
    WalksAddresses ⟨probe, completion, fun a => (addressesOf s a).toList⟩ s := by
  intro a entry held
  have own : addressesOf s a = entry := by rw [addressesOf, held, Option.getD_some]
  exact ⟨Finset.nodup_toList _, fun addr => by simp [own]⟩

/-- The checks pending for an index are those of its authority's addresses. -/
theorem pending_under {entry : PublicKey × Nat} (member : entry ∈ authorities.zipIdx) :
    (pendingChecks course s authorities).filter (·.1 = entry.2) =
      (HashSet.iterate (course.walk entry.1) (addressesOf s entry.1)).map fun addr =>
        (entry.2, addr, isPublicAddress course.probe addr) := by
  unfold pendingChecks addressesOf
  rw [listed_under ?_ (zip_idx_distinct authorities) member]
  · cases s.authorityToDetails.lookup entry.1 with
    | none => simp [HashSet.iterate]
    | some addrs => rfl
  · intro other listed inside
    split at inside
    · cases inside
    · obtain ⟨_, _, rfl⟩ := List.mem_map.mp inside
      rfl

/-- The addresses in the result of an authority, each checked once for its
index. -/
theorem result_addresses_perm {entry : PublicKey × Nat} (member : entry ∈ authorities.zipIdx) :
    (authorityResult naming course s entry.1 ((((runConnectivityChecks course.probe course.completion
        (pendingChecks course s authorities)).mapValues (List.map (enrich s.dialOutcomes))).lookup
          entry.2).getD [])).addresses.Perm
      ((HashSet.iterate (course.walk entry.1) (addressesOf s entry.1)).map fun addr =>
        enrich s.dialOutcomes (checkAddress course.probe entry.2 addr (isPublicAddress course.probe addr))) := by
  have checked := @connectivity_checks_perm _ course.probe course.completion
    (pendingChecks course s authorities) entry.2
  rw [pending_under member, List.map_map] at checked
  have mapped : ∀ held : Option (List (AddressCheck PeerId)),
      (held.map (List.map (enrich s.dialOutcomes))).getD [] = (held.getD []).map (enrich s.dialOutcomes) := by
    intro held
    cases held <;> rfl
  rw [Finmap.lookup_map_values, mapped]
  unfold authorityResult
  cases details : s.authorityToDetails.lookup entry.1 with
  | none => simp [HashSet.iterate, addressesOf, details]
  | some addrs =>
    have enriched := checked.map (enrich s.dialOutcomes)
    rw [List.map_map] at enriched
    exact enriched

/-- What is counted of the outcomes in the result of an authority is counted of
its addresses. -/
theorem result_outcomes (walks : WalksAddresses course s) (counts : Option DialOutcome → Bool)
    {entry : PublicKey × Nat} (member : entry ∈ authorities.zipIdx) :
    (authorityResult naming course s entry.1 ((((runConnectivityChecks course.probe course.completion
        (pendingChecks course s authorities)).mapValues (List.map (enrich s.dialOutcomes))).lookup
          entry.2).getD [])).addresses.countP (fun check => counts check.dialOutcome) =
      ((addressesOf s entry.1).filter fun addr => counts (s.dialOutcomes.lookup addr) = true).card := by
  rw [(result_addresses_perm member).countP_eq, List.countP_map]
  cases details : s.authorityToDetails.lookup entry.1 with
  | none => simp [HashSet.iterate, addressesOf, details]
  | some addrs =>
    have own : addressesOf s entry.1 = addrs := by rw [addressesOf, details, Option.getD_some]
    rw [own, ← HashSet.walk_count (walks _ _ details)]
    rfl

/-- What is counted of the outcomes in all results, authority by authority. -/
theorem outcome_total (distinct : authorities.Nodup) (walks : WalksAddresses course s)
    (counts : Option DialOutcome → Bool) :
    (allChecks (checkResults naming course s authorities)).countP (fun check => counts check.dialOutcome) =
      ∑ a ∈ authorities.toFinset,
        ((addressesOf s a).filter fun addr => counts (s.dialOutcomes.lookup addr) = true).card := by
  have each : (checkResults naming course s authorities).map
      (fun r => r.addresses.countP fun check => counts check.dialOutcome) =
        authorities.map fun a =>
          ((addressesOf s a).filter fun addr => counts (s.dialOutcomes.lookup addr) = true).card := by
    rw [checkResults, build_results_eq (zip_idx_distinct authorities), List.map_map]
    conv_rhs => rw [← List.zipIdx_map_fst 0 authorities, List.map_map]
    exact List.map_congr_left fun entry member => result_outcomes walks counts member
  rw [allChecks, List.countP_flatMap, List.sum_toFinset _ distinct, ← each]
  rfl

/-- The addresses of the listed authorities, each for its authority, whose
outcome is counted. -/
def counted (authorities : List PublicKey) (s : AuthorityDiscovery PeerId QueryId) (counts : DialOutcome → Bool) :
    Finset ((_ : PublicKey) × LibP2pMultiaddr PeerId) :=
  authorities.toFinset.sigma fun a =>
    (addressesOf s a).filter fun addr => (s.dialOutcomes.lookup addr).any counts = true

omit [DecidableEq PeerId] in
theorem mem_addresses_of {a : PublicKey} {addr : LibP2pMultiaddr PeerId} :
    addr ∈ addressesOf s a ↔ ∃ entry, s.authorityToDetails.lookup a = some entry ∧ addr ∈ entry := by
  unfold addressesOf
  cases s.authorityToDetails.lookup a <;> simp

/-- Each counted outcome is one of an address that some authority has. -/
theorem counted_addresses (tracked : DialsTracked s) (found : s.authorityToDetails.keys ⊆ authorities.toFinset)
    (counts : DialOutcome → Bool) :
    ((counted authorities s counts).image Sigma.snd).card = s.dialOutcomes.values.countP (counts ·) := by
  rw [Finmap.count_values]
  congr 1
  ext addr
  simp only [counted, Finset.mem_image, Finset.mem_sigma, Finset.mem_filter, Sigma.exists]
  constructor
  · rintro ⟨a, _, ⟨_, _, outcome⟩, rfl⟩
    refine ⟨?_, outcome⟩
    obtain ⟨value, held, _⟩ := (Option.any_eq_true _ _).mp outcome
    exact Finmap.mem_keys.mpr (Finmap.mem_of_lookup_eq_some held)
  · rintro ⟨member, outcome⟩
    have dialed := tracked.once.recorded addr (Finmap.mem_keys.mp member)
    rw [tracked.stored, mem_all_addresses] at dialed
    obtain ⟨a, entry, held, inside⟩ := dialed
    have listed := found (Finmap.mem_keys.mpr (Finmap.mem_of_lookup_eq_some held))
    exact ⟨a, addr, ⟨listed, mem_addresses_of.mpr ⟨entry, held, inside⟩, outcome⟩, rfl⟩

/-- No address with an outcome is stored for two authorities. -/
def Unshared (s : AuthorityDiscovery PeerId QueryId) : Prop :=
  ∀ addr ∈ s.dialOutcomes, ∀ a b entry entry', s.authorityToDetails.lookup a = some entry → addr ∈ entry →
    s.authorityToDetails.lookup b = some entry' → addr ∈ entry' → a = b

/-- Where no address is shared, as many pairs are counted as addresses. -/
theorem unshared_counted (unshared : Unshared s) (counts : DialOutcome → Bool) :
    ((counted authorities s counts).image Sigma.snd).card = (counted authorities s counts).card := by
  refine Finset.card_image_of_injOn ?_
  rintro ⟨a, addr⟩ left ⟨b, addr'⟩ right same
  cases same
  simp only [counted, Finset.coe_sigma, Set.mem_sigma_iff, Finset.mem_coe, Finset.mem_filter] at left right
  obtain ⟨entry, held, inside⟩ := mem_addresses_of.mp left.2.1
  obtain ⟨entry', held', inside'⟩ := mem_addresses_of.mp right.2.1
  obtain ⟨value, outcome, _⟩ := (Option.any_eq_true _ _).mp left.2.2
  rw [unshared addr (Finmap.mem_of_lookup_eq_some outcome) a b entry entry' held inside held' inside']

/-- As many pairs as addresses leave no address shared. -/
theorem counted_unshared (found : s.authorityToDetails.keys ⊆ authorities.toFinset)
    (same : ((counted authorities s fun _ => true).image Sigma.snd).card =
      (counted authorities s fun _ => true).card) : Unshared s := by
  intro addr recorded a b entry entry' held inside held' inside'
  obtain ⟨value, outcome⟩ := Finmap.mem_iff.mp recorded
  have pair : ∀ authority entry, s.authorityToDetails.lookup authority = some entry → addr ∈ entry →
      (⟨authority, addr⟩ : (_ : PublicKey) × LibP2pMultiaddr PeerId) ∈ counted authorities s fun _ => true := by
    intro authority entry held inside
    simp only [counted, Finset.mem_sigma, Finset.mem_filter, outcome, Option.any_some, and_true]
    exact ⟨found (Finmap.mem_keys.mpr (Finmap.mem_of_lookup_eq_some held)), mem_addresses_of.mpr ⟨entry, held, inside⟩⟩
  have equal := Finset.card_image_iff.mp same (pair a entry held inside) (pair b entry' held' inside') rfl
  exact congrArg Sigma.fst equal

/-- The addresses with an outcome and those without one are all addresses. -/
theorem pending_split (found : s.authorityToDetails.keys ⊆ authorities.toFinset) :
    (counted authorities s fun _ => true).card +
        ∑ a ∈ authorities.toFinset,
          ((addressesOf s a).filter fun addr => (s.dialOutcomes.lookup addr).isNone = true).card =
      (dialResults s).totalAddrs := by
  have each : ∀ a, ((addressesOf s a).filter fun addr =>
        (s.dialOutcomes.lookup addr).any (fun _ => true) = true).card +
      ((addressesOf s a).filter fun addr => (s.dialOutcomes.lookup addr).isNone = true).card =
        (s.authorityToDetails.lookup a).elim 0 Finset.card := by
    intro a
    have size : (addressesOf s a).card = (s.authorityToDetails.lookup a).elim 0 Finset.card := by
      unfold addressesOf
      cases s.authorityToDetails.lookup a <;> rfl
    have without : ((addressesOf s a).filter fun addr => (s.dialOutcomes.lookup addr).isNone = true) =
        (addressesOf s a).filter fun addr => ¬(s.dialOutcomes.lookup addr).any (fun _ => true) = true := by
      refine Finset.filter_congr fun addr _ => ?_
      cases s.dialOutcomes.lookup addr <;> simp
    rw [← size, without]
    exact Finset.card_filter_add_card_filter_not _
  rw [counted, Finset.card_sigma, ← Finset.sum_add_distrib, Finset.sum_congr rfl fun a _ => each a]
  have total : (dialResults s).totalAddrs =
      ∑ a ∈ s.authorityToDetails.keys, (s.authorityToDetails.lookup a).elim 0 Finset.card :=
    Finmap.sum_values s.authorityToDetails Finset.card
  rw [total]
  refine (Finset.sum_subset found fun a _ missing => ?_).symm
  rw [Finmap.lookup_eq_none.mpr fun member => missing (Finmap.mem_keys.mpr member)]
  rfl

/-- The results list a record for as many authorities as were found. -/
theorem records_total (distinct : authorities.Nodup)
    (found : s.authorityToDetails.keys ⊆ authorities.toFinset) :
    (checkResults naming course s authorities).countP (·.hasDhtRecord) = dhtCount s := by
  have each : ∀ (a : PublicKey) (checks : List (AddressCheck PeerId)),
      (authorityResult naming course s a checks).hasDhtRecord = decide (a ∈ s.authorityToDetails) := by
    intro a checks
    unfold authorityResult
    cases held : s.authorityToDetails.lookup a with
    | none => simp [Finmap.lookup_eq_none.mp held]
    | some entry => simp [Finmap.mem_of_lookup_eq_some held]
  have listed : (authorities.filter fun a => decide (a ∈ s.authorityToDetails)).toFinset =
      s.authorityToDetails.keys := by
    ext a
    simp only [List.mem_toFinset, List.mem_filter, decide_eq_true_eq, Finmap.mem_keys]
    exact ⟨And.right, fun member => ⟨List.mem_toFinset.mp (found (Finmap.mem_keys.mpr member)), member⟩⟩
  rw [checkResults, build_results_eq (zip_idx_distinct authorities), List.countP_map, dhtCount, Finmap.size,
    ← listed, List.toFinset_card_of_nodup (distinct.filter _), ← List.countP_eq_length_filter]
  conv_rhs => rw [← List.zipIdx_map_fst 0 authorities, List.countP_map]
  exact List.countP_congr fun entry _ => by simp only [Function.comp_apply, each]

/-- The results name an agent version for the authorities that were identified. -/
theorem identified_total :
    (checkResults naming course s authorities).countP (·.agentVersion.isSome) =
      identifiedAuthorities course s authorities := by
  have each : ∀ (a : PublicKey) (checks : List (AddressCheck PeerId)),
      (authorityResult naming course s a checks).agentVersion.isSome =
        (peerOf course s a).any fun pid => decide (pid ∈ s.peerInfo) := by
    intro a checks
    unfold authorityResult
    cases held : s.authorityToDetails.lookup a with
    | none => simp [peerOf, held]
    | some entry =>
      dsimp only
      cases peerOf course s a with
      | none => rfl
      | some pid =>
        rw [Option.isSome_map, Option.bind_some, Option.any_some]
        cases info : s.peerInfo.lookup pid with
        | none => simp [Finmap.lookup_eq_none.mp info]
        | some _ => simp [Finmap.mem_of_lookup_eq_some info]
  rw [checkResults, build_results_eq (zip_idx_distinct authorities), List.countP_map, identifiedAuthorities]
  conv_rhs => rw [← List.zipIdx_map_fst 0 authorities, List.countP_map]
  exact List.countP_congr fun entry _ => by simp only [Function.comp_apply, each]

end Regrouping

section Runs
variable {PeerId NodeKey QueryId : Type} [DecidableEq PeerId] [DecidableEq QueryId]
  {net : Network PeerId NodeKey QueryId} {t : AuthorityDiscovery PeerId QueryId}
  {authorities : List PublicKey} {first : Arrangement authorities}
  {turns : List (Turn PeerId QueryId authorities)}

/-- Records and identified authorities are the same in both reports, and the
dial counts are exactly if no address with an outcome is stored for two
authorities. -/
theorem reports_agree_unshared_iff (naming : Naming PeerId) {course : Course PeerId} (distinct : authorities.Nodup)
    (run : (discovery net authorities first).replay turns = some t) (walks : WalksAddresses course t) :
    ∃ stats, computeGlobalStats (checkResults naming course t authorities) = some stats ∧
      dhtCount t = stats.withDhtRecords ∧ identifiedAuthorities course t authorities = stats.identified ∧
      ((dialResults t).dialSuccess = stats.dialSuccess ∧ (dialResults t).dialFailed = stats.dialFailed ∧
        (dialResults t).dialPending = stats.dialPending ↔ Unshared t) := by
  obtain ⟨stats, computed, _, addresses, results⟩ :=
    global_stats_tallied (checkResults naming course t authorities)
  have parted := run_partition run
  have found : t.authorityToDetails.keys ⊆ authorities.toFinset := by
    rw [← parted.whole]
    exact Finset.subset_union_left
  have tracked := run_tracked run
  have pairs : ∀ counts : DialOutcome → Bool, (counted authorities t counts).card =
      (allChecks (checkResults naming course t authorities)).countP fun check => check.dialOutcome.any counts := by
    intro counts
    rw [counted, Finset.card_sigma]
    exact (outcome_total distinct walks fun outcome => outcome.any counts).symm
  have success : stats.dialSuccess = (counted authorities t DialOutcome.isSuccess).card := by
    rw [pairs, addresses.success]
    rfl
  have failed : stats.dialFailed = (counted authorities t DialOutcome.isFailed).card := by
    rw [pairs, addresses.failed]
    rfl
  have split : (counted authorities t fun _ => true).card + stats.dialPending = (dialResults t).totalAddrs := by
    rw [addresses.pending, ← pending_split found]
    congr 1
    exact outcome_total distinct walks Option.isNone
  have recorded : ((counted authorities t fun _ => true).image Sigma.snd).card = t.dialOutcomes.size := by
    rw [counted_addresses tracked found, ← Finmap.card_values]
    simp
  have within := outcomes_le tracked
  have printed : (dialResults t).dialPending = (dialResults t).totalAddrs - t.dialOutcomes.size := rfl
  refine ⟨stats, computed, ?_, ?_, ?_, fun unshared => ⟨?_, ?_, ?_⟩⟩
  · rw [results.records, records_total distinct found]
  · rw [results.identified, identified_total]
  · rintro ⟨_, _, pending⟩
    apply counted_unshared found
    omega
  · rw [success, ← unshared_counted unshared, counted_addresses tracked found]
    rfl
  · rw [failed, ← unshared_counted unshared, counted_addresses tracked found]
    rfl
  · have same : ((counted authorities t fun _ => true).image Sigma.snd).card =
        (counted authorities t fun _ => true).card := unshared_counted unshared _
    omega

/-- No names, and keys shown by nothing. -/
def unnamed : Naming Nat := ⟨∅, ∅, ⟨id, fun _ => ""⟩, 42, Nat.repr⟩

/-- Every endpoint answers. -/
def answering : Probe Nat := ⟨fun _ => "", fun _ => "", fun _ => "", fun _ => true, fun _ => true, fun _ _ _ => .ok ()⟩

private theorem both_listed : (numberedKeys 2).Nodup := numbered_keys_distinct (by decide)

/-- One record, whose address is dialed and connected. -/
theorem unshared_address_agrees : ∃ t stats,
    (discovery (.counting (.onePublished [namedAddress])) (numberedKeys 2) (.listed both_listed)).replay
      (publishedAnswer ++ [connectedDial]) = some t ∧
    computeGlobalStats (checkResults unnamed ⟨answering, .inTurn, fun a => (addressesOf t a).toList⟩ t
      (numberedKeys 2)) = some stats ∧
    dhtCount t = stats.withDhtRecords ∧
    identifiedAuthorities ⟨answering, .inTurn, fun a => (addressesOf t a).toList⟩ t (numberedKeys 2) =
      stats.identified ∧
    (dialResults t).dialSuccess = stats.dialSuccess ∧ (dialResults t).dialFailed = stats.dialFailed ∧
      (dialResults t).dialPending = stats.dialPending := by
  have keys : ((discovery (.counting (.onePublished [namedAddress])) (numberedKeys 2)
      (.listed both_listed)).replay (publishedAnswer ++ [connectedDial])).map
        (fun t => t.authorityToDetails.keys) = some {numberedKey 0} := by
    decide +kernel
  obtain ⟨t, run, found⟩ := Option.map_eq_some_iff.mp keys
  have walks : WalksAddresses ⟨answering, .inTurn, fun a => (addressesOf t a).toList⟩ t := listed_walks _ _ t
  have only : ∀ a entry, t.authorityToDetails.lookup a = some entry → a = numberedKey 0 := by
    intro a entry held
    have member := Finmap.mem_keys.mpr (Finmap.mem_of_lookup_eq_some held)
    rw [found] at member
    exact Finset.mem_singleton.mp member
  have unshared : Unshared t := by
    intro addr _ a b entry entry' held _ held' _
    rw [only a entry held, only b entry' held']
  obtain ⟨stats, computed, records, identified, dials⟩ :=
    reports_agree_unshared_iff unnamed both_listed run walks
  exact ⟨t, stats, run, computed, records, identified, dials.mpr unshared⟩

/-- Each authority publishes the one address of its node, which two share. -/
def sharedNode : RecordCodec Nat Nat where
  decodeSigned value := some ⟨value, List.replicate 64 3, some ⟨[4], [5]⟩⟩
  decodeRecord _ := some ⟨[[0]]⟩
  parseMultiaddr _ := some namedAddress
  verify signature record authorityId :=
    signature.bytes = List.replicate 64 3 ∧ record = authorityId.bytes.take 1
  decodePublicKey bytes := if bytes = [5] then some 7 else none
  toPeerId key := key
  verifyPeer key _ signature := key = 7 ∧ signature = [4]

/-- Both records arrive and the address is connected. -/
def sharedAnswers : List (Turn Nat Nat (numberedKeys 2)) :=
  [.swarm (.getRecord 0 true (.foundRecord ⟨(numberedKey 0).bytes⟩ [0])) (.listed both_listed) fun _ => none,
    .swarm (.getRecord 1 true (.foundRecord ⟨(numberedKey 1).bytes⟩ [1])) (.listed both_listed) fun _ => none,
    connectedDial]

def sharedCourse : Course Nat := ⟨answering, .inTurn, fun _ => [namedAddress]⟩

/-- The one connected address is printed as one connected and one pending, and
counted as two connected. -/
theorem shared_address_disagrees : ∃ t stats,
    (discovery (.counting sharedNode) (numberedKeys 2) (.listed both_listed)).replay sharedAnswers = some t ∧
    WalksAddresses sharedCourse t ∧
    computeGlobalStats (checkResults unnamed sharedCourse t (numberedKeys 2)) = some stats ∧
    (dialResults t).dialSuccess = 1 ∧ stats.dialSuccess = 2 ∧
    (dialResults t).dialPending = 1 ∧ stats.dialPending = 0 := by
  have stored : ((discovery (.counting sharedNode) (numberedKeys 2) (.listed both_listed)).replay
      sharedAnswers).map (fun t => (t.authorityToDetails.keys, (numberedKeys 2).map (addressesOf t))) =
        some ((numberedKeys 2).toFinset, [{namedAddress}, {namedAddress}]) := by
    decide +kernel
  have printed : ((discovery (.counting sharedNode) (numberedKeys 2) (.listed both_listed)).replay
      sharedAnswers).map (fun t => ((dialResults t).dialSuccess, (dialResults t).dialPending)) =
        some (1, 1) := by
    decide +kernel
  have computed : ((discovery (.counting sharedNode) (numberedKeys 2) (.listed both_listed)).replay
      sharedAnswers).map (fun t => (computeGlobalStats (checkResults unnamed sharedCourse t (numberedKeys 2))).map
        fun stats => (stats.dialSuccess, stats.dialPending)) = some (some (2, 0)) := by
    decide +kernel
  obtain ⟨t, run, shown⟩ := Option.map_eq_some_iff.mp stored
  obtain ⟨keys, entries⟩ := Prod.mk.inj shown
  rw [run, Option.map_some, Option.some_inj] at printed computed
  obtain ⟨connected, waiting⟩ := Prod.mk.inj printed
  obtain ⟨stats, computed, shown⟩ := Option.map_eq_some_iff.mp computed
  obtain ⟨success, pending⟩ := Prod.mk.inj shown
  have walks : WalksAddresses sharedCourse t := by
    intro a entry held
    have member := Finmap.mem_keys.mpr (Finmap.mem_of_lookup_eq_some held)
    rw [keys, List.mem_toFinset] at member
    have listed : addressesOf t a ∈ (numberedKeys 2).map (addressesOf t) := List.mem_map_of_mem member
    rw [entries, addressesOf, held, Option.getD_some] at listed
    have own : entry = {namedAddress} := by simpa using listed
    rw [own]
    exact ⟨List.nodup_singleton _, fun addr => by simp [sharedCourse]⟩
  exact ⟨t, stats, run, walks, computed, connected, success, waiting, pending⟩

end Runs
end Subp2pExplorer.Check
