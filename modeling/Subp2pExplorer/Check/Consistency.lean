import Mathlib.Algebra.BigOperators.Group.Finset.Piecewise
import Subp2pExplorer.Check.Totals

/-! The statistics against each other and against the filter for failing
authorities. Both judge an authority by its tested public addresses, in tests
written apart; that one is the other's negation rests on how the results are
built. -/
namespace Subp2pExplorer.Check
open Lib Authorities Authorities.AuthorityDiscovery Subp2pExplorer.Types

section Consistency
variable {PeerId : Type}

/-- `is_authority_failing`. -/
def isAuthorityFailing (r : AuthorityResult PeerId) : Bool :=
  if !r.hasDhtRecord then true
  else
    let tested := r.addresses.filter fun a => a.isPublic && !a.result.isSkipped
    if tested.isEmpty then true else tested.any (·.result.isFailed)

/-- What every result of a check is built with. -/
structure AuthorityResult.Built (r : AuthorityResult PeerId) : Prop where
  no_record : r.hasDhtRecord = false → r.addresses = [] ∧ r.peerId = none ∧ r.agentVersion = none
  agent_of_peer : r.agentVersion.isSome → r.peerId.isSome
  private_skipped : ∀ a ∈ r.addresses, a.isPublic = false → a.result.isSkipped = true

/-- The counters of the statistics against each other. -/
structure GlobalStats.Consistent (results : List (AuthorityResult PeerId)) (stats : GlobalStats) : Prop where
  failing : stats.fullyReachableAuthorities + results.countP isAuthorityFailing = stats.totalAuthorities
  fully_reachable : stats.fullyReachableAuthorities ≤ stats.reachableAuthorities
  reachable_recorded : stats.reachableAuthorities ≤ stats.withDhtRecords
  recorded_total : stats.withDhtRecords ≤ stats.totalAuthorities
  identified_peers : stats.identified ≤ stats.withPeerId
  peers_recorded : stats.withPeerId ≤ stats.withDhtRecords
  addresses : stats.publicAddresses + stats.privateAddresses = stats.totalAddresses
  tested : stats.reachablePublic + stats.unreachablePublic +
    (allChecks results).countP (fun a => a.isPublic && a.result.isSkipped) = stats.publicAddresses
  dialed : stats.dialSuccess + stats.dialFailed + stats.dialPending = stats.totalAddresses
  versions : stats.agentVersions.values.sum = stats.identified

theorem failed_iff_not_ok {result : AddressResult} (tested : result.isSkipped = false) :
    result.isFailed = !result.isOk := by
  cases result with
  | ok => rfl
  | failed reason => rfl
  | skipped reason => cases tested

/-- The filter for failing authorities is the negation of the test for fully
reachable ones. -/
theorem failing_iff_not_fully (r : AuthorityResult PeerId) (built : r.Built) :
    isAuthorityFailing r = !allPubOk r := by
  unfold isAuthorityFailing allPubOk
  cases record : r.hasDhtRecord with
  | false =>
    have none : pubTested r = [] := by rw [pubTested, (built.no_record record).1, List.filter_nil]
    rw [none]
    rfl
  | true =>
    have failed : (pubTested r).any (·.result.isFailed) = !(pubTested r).all (·.result.isOk) := by
      rw [List.not_all_eq_any_not, Bool.eq_iff_iff, List.any_eq_true, List.any_eq_true]
      refine exists_congr fun a => and_congr_right fun member => ?_
      have tested : a.result.isSkipped = false := by
        have kept := (List.mem_filter.mp member).2
        rw [Bool.and_eq_true, Bool.not_eq_true'] at kept
        exact kept.2
      rw [failed_iff_not_ok tested]
    change (if (pubTested r).isEmpty then true else (pubTested r).any (·.result.isFailed)) = _
    rw [failed]
    cases (pubTested r).isEmpty <;> rfl

theorem count_or_not {α : Type} (counts : α → Bool) (l : List α) :
    l.countP counts + l.countP (fun a => !counts a) = l.length := by
  simpa using (List.length_eq_countP_add_countP counts (l := l)).symm

theorem fully_reachable_any (r : AuthorityResult PeerId) (fully : allPubOk r = true) : anyOk r = true := by
  rw [allPubOk, Bool.and_eq_true, Bool.not_eq_true', List.isEmpty_eq_false_iff] at fully
  obtain ⟨a, member⟩ := List.exists_mem_of_ne_nil _ fully.1
  exact List.any_eq_true.mpr ⟨a, (List.mem_filter.mp member).1, List.all_eq_true.mp fully.2 a member⟩

theorem any_ok_recorded (r : AuthorityResult PeerId) (built : r.Built) (reachable : anyOk r = true) :
    r.hasDhtRecord = true := by
  cases record : r.hasDhtRecord with
  | true => rfl
  | false =>
    rw [anyOk, (built.no_record record).1] at reachable
    cases reachable

theorem peer_recorded (r : AuthorityResult PeerId) (built : r.Built) (peer : r.peerId.isSome = true) :
    r.hasDhtRecord = true := by
  cases record : r.hasDhtRecord with
  | true => rfl
  | false =>
    rw [(built.no_record record).2.1] at peer
    cases peer

/-- A public address answered, did not, or was not tested. -/
theorem public_split (checks : List (AddressCheck PeerId)) :
    checks.countP (fun a => a.isPublic && a.result.isOk) + checks.countP (fun a => a.isPublic && a.result.isFailed) +
      checks.countP (fun a => a.isPublic && a.result.isSkipped) = checks.countP (·.isPublic) := by
  induction checks with
  | nil => rfl
  | cons a rest ih =>
    simp only [List.countP_cons]
    rw [← ih]
    cases a.isPublic <;> cases a.result <;>
      simp [AddressResult.isOk, AddressResult.isFailed, AddressResult.isSkipped] <;> omega

/-- A dial succeeded, failed, or has no outcome. -/
theorem dial_split (checks : List (AddressCheck PeerId)) :
    checks.countP (·.dialed) + checks.countP (·.refused) + checks.countP (·.dialOutcome.isNone) = checks.length := by
  induction checks with
  | nil => rfl
  | cons a rest ih =>
    simp only [List.countP_cons, List.length_cons]
    rw [← ih]
    rcases outcome : a.dialOutcome with _ | _ | _ <;>
      simp [AddressCheck.dialed, AddressCheck.refused, outcome, DialOutcome.isSuccess, DialOutcome.isFailed] <;> omega

/-- Every agent version is in one bucket. -/
theorem buckets_split (buckets : Finset String) (results : List (AuthorityResult PeerId))
    (covered : ∀ r ∈ results, ∀ version, r.agentVersion = some version → bucket version ∈ buckets) :
    ∑ b ∈ buckets, results.countP (inBucket b) = results.countP (·.agentVersion.isSome) := by
  induction results with
  | nil => simp
  | cons r rest ih =>
    have others := ih fun r' member => covered r' (List.mem_cons_of_mem _ member)
    simp only [List.countP_cons, Finset.sum_add_distrib]
    rw [others]
    congr 1
    cases version : r.agentVersion with
    | none => simp [inBucket, version]
    | some v =>
      have member := covered r List.mem_cons_self v version
      have one : ∀ b, (if inBucket b r = true then 1 else 0) = if bucket v = b then 1 else 0 := by
        intro b
        simp [inBucket, version]
      simp only [one]
      rw [Finset.sum_ite_eq, if_pos member]
      rfl

theorem versions_sum (results : List (AuthorityResult PeerId)) (stats : GlobalStats)
    (tallied : AuthoritiesTallied results stats) : stats.agentVersions.values.sum = stats.identified := by
  have total := Finmap.sum_values stats.agentVersions id
  rw [Multiset.map_id] at total
  have each : ∀ b, (stats.agentVersions.lookup b).elim 0 id = results.countP (inBucket b) := by
    intro b
    rw [tallied.versions]
    split
    · rename_i none
      exact none.symm
    · rfl
  rw [total, Finset.sum_congr rfl fun b _ => each b, tallied.identified]
  refine buckets_split _ results fun r member version held => ?_
  have counted : 0 < results.countP (inBucket (bucket version)) :=
    List.countP_pos_iff.mpr ⟨r, member, by simp [inBucket, held]⟩
  have found := tallied.versions (bucket version)
  rw [if_neg (Nat.ne_of_gt counted)] at found
  exact Finmap.mem_keys.mpr (Finmap.mem_of_lookup_eq_some found)

/-- The statistics of results as they are built are always computed, and are
consistent with each other and with the filter for failing authorities. -/
theorem global_stats_consistent (results : List (AuthorityResult PeerId)) (built : ∀ r ∈ results, r.Built) :
    ∃ stats, computeGlobalStats results = some stats ∧ stats.Consistent results := by
  obtain ⟨stats, computed, total, checks, tallied⟩ := global_stats_tallied results
  refine ⟨stats, computed, ?_⟩
  constructor
  case failing =>
    have failing : results.countP isAuthorityFailing = results.countP fun r => !allPubOk r :=
      List.countP_congr fun r member => by rw [failing_iff_not_fully r (built r member)]
    rw [tallied.fully, failing, total]
    exact count_or_not allPubOk results
  case fully_reachable =>
    rw [tallied.fully, tallied.reachable]
    exact List.countP_mono_left fun r _ => fully_reachable_any r
  case reachable_recorded =>
    rw [tallied.reachable, tallied.records]
    exact List.countP_mono_left fun r member => any_ok_recorded r (built r member)
  case recorded_total =>
    rw [tallied.records, total]
    exact List.countP_le_length
  case identified_peers =>
    rw [tallied.identified, tallied.peers]
    exact List.countP_mono_left fun r member => (built r member).agent_of_peer
  case peers_recorded =>
    rw [tallied.peers, tallied.records]
    exact List.countP_mono_left fun r member => peer_recorded r (built r member)
  case addresses =>
    rw [checks.isPublic, checks.isPrivate, checks.total]
    exact count_or_not AddressCheck.isPublic _
  case tested =>
    rw [checks.reachable, checks.unreachable, checks.isPublic]
    exact public_split _
  case dialed =>
    rw [checks.success, checks.failed, checks.pending, checks.total]
    exact dial_split _
  case versions => exact versions_sum results stats tallied

/-- A result of an authority without a record, one of a reachable authority and
one whose only public address was not tested. -/
def threeResults : List (AuthorityResult Nat) :=
  [⟨"a", none, none, none, none, false, []⟩,
    ⟨"b", none, some "B", some "7", some "node/v1.2.3-abc", true,
      [⟨"", true, .ok, some .success, none⟩, ⟨"", false, .skipped "private", none, none⟩]⟩,
    ⟨"c", none, none, some "8", none, true, [⟨"", true, .skipped "unsupported transport", none, none⟩]⟩]

theorem three_results_consistent :
    ∃ stats, computeGlobalStats threeResults = some stats ∧ stats.Consistent threeResults := by
  refine global_stats_consistent threeResults ?_
  simp only [threeResults, List.forall_mem_cons, List.not_mem_nil, false_implies, implies_true, and_true]
  refine ⟨⟨?_, ?_, ?_⟩, ⟨?_, ?_, ?_⟩, ⟨?_, ?_, ?_⟩⟩ <;> simp [AddressResult.isSkipped]

end Consistency

section Built
variable {PeerId QueryId : Type} [DecidableEq PeerId] {naming : Naming PeerId} {course : Course PeerId}
  {s : AuthorityDiscovery PeerId QueryId}

/-- A check skips every private address, and learning how its dial went keeps
that. -/
theorem private_skipped (outcomes : Map (LibP2pMultiaddr PeerId) DialOutcome) (idx : Nat)
    (addr : LibP2pMultiaddr PeerId) (shown : Bool)
    (hidden : (enrich outcomes (checkAddress course.probe idx addr shown)).isPublic = false) :
    (enrich outcomes (checkAddress course.probe idx addr shown)).result.isSkipped = true := by
  cases shown with
  | false => rfl
  | true => cases hidden

/-- The results of a check are built as the statistics expect. -/
theorem check_results_built (authorities : List PublicKey) :
    ∀ r ∈ checkResults naming course s authorities, r.Built := by
  intro r built
  rw [checkResults, build_results_eq (zip_idx_distinct authorities)] at built
  obtain ⟨entry, member, rfl⟩ := List.mem_map.mp built
  constructor
  case private_skipped =>
    intro check listed hidden
    obtain ⟨addr, -, rfl⟩ := List.mem_map.mp ((result_addresses_perm member).mem_iff.mp listed)
    exact private_skipped _ _ _ _ hidden
  all_goals
    unfold authorityResult
    cases details : s.authorityToDetails.lookup entry.1 with
    | none => simp
    | some addrs =>
      cases peerOf course s entry.1 <;> simp

end Built
end Subp2pExplorer.Check
