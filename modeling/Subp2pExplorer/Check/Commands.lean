import Subp2pExplorer.Authorities.Peers
import Subp2pExplorer.Authorities.Representatives
import Subp2pExplorer.Check.Summary
import Subp2pExplorer.Check.Totals

/-! The two commands that report on authorities, over one discovery. They read
the peer of an authority in different ways, one from the first address and one
from the first that names a peer, and count what mentions a backend in
different texts, one in agent versions and one in the names these are grouped
under. -/
namespace Subp2pExplorer.Check
open Lib Authorities Authorities.AuthorityDiscovery Identity Subp2pExplorer.Types
open Subp2pExplorer.Network (contains)

/-- What `discover_authorities` tells of each authority, and its two counters. -/
structure AuthoritiesReport (PeerId : Type) where
  reports : List (PublicKey × Report PeerId)
  reachedPeers : Nat
  litep2p : Nat
  deriving DecidableEq

section Reporting
variable {PeerId QueryId : Type} [DecidableEq PeerId] (walk : PublicKey → List (LibP2pMultiaddr PeerId))
  (s : AuthorityDiscovery PeerId QueryId)

/-- The round of the loop for one authority, and nothing where the `expect` on
the peer id fires. -/
def AuthoritiesReport.add (told : AuthoritiesReport PeerId) (authority : PublicKey) :
    Option (AuthoritiesReport PeerId) :=
  let reported := report (walk authority) s authority
  let shown := { told with reports := told.reports ++ [(authority, reported)] }
  match reported with
  | .panicked => none
  | .reached _ info =>
    some { shown with
      reachedPeers := told.reachedPeers + 1
      litep2p := tick told.litep2p (contains info.agentVersion "litep2p") }
  | .noResponse | .noAddresses | .unreached _ => some shown

/-- `discover_authorities`, behind the discovery. -/
def discoverAuthorities (authorities : List PublicKey) : Option (AuthoritiesReport PeerId) :=
  authorities.foldlM (AuthoritiesReport.add walk s) ⟨[], 0, 0⟩

end Reporting

/-- What the peer of an authority told, where the report has reached it. -/
def reachedInfo {PeerId : Type} : Report PeerId → Option Info
  | .reached _ info => some info
  | _ => none

/-- The agent version mentions the backend. -/
def mentionsLitep2p (version : String) : Bool := contains version "litep2p"

section Rounds
variable {PeerId QueryId : Type} [DecidableEq PeerId] {walk : PublicKey → List (LibP2pMultiaddr PeerId)}
  {s : AuthorityDiscovery PeerId QueryId}

/-- A round in one piece. -/
theorem add_report (told : AuthoritiesReport PeerId) (a : PublicKey) :
    told.add walk s a =
      if report (walk a) s a = .panicked then none
      else some {
        reports := told.reports ++ [(a, report (walk a) s a)]
        reachedPeers := told.reachedPeers + [report (walk a) s a].countP fun r => (reachedInfo r).isSome
        litep2p := told.litep2p + [report (walk a) s a].countP fun r =>
          (reachedInfo r).any (mentionsLitep2p ·.agentVersion) } := by
  unfold AuthoritiesReport.add
  cases report (walk a) s a with
  | panicked => rfl
  | reached peerId info =>
    have marked : tick told.litep2p (contains info.agentVersion "litep2p") =
        told.litep2p + [Report.reached peerId info].countP fun r =>
          (reachedInfo r).any (mentionsLitep2p ·.agentVersion) := by
      unfold tick
      rw [List.countP_singleton]
      show _ = told.litep2p + if contains info.agentVersion "litep2p" = true then 1 else 0
      split <;> rfl
    rw [if_neg (by simp), ← marked]
    rfl
  | noResponse | noAddresses | unreached peerId => rw [if_neg (by simp)]; rfl

/-- The loop in one piece: it ends where no report panics, and then it has one
report for each authority and has counted what these say. -/
theorem add_reports (authorities : List PublicKey) (told : AuthoritiesReport PeerId) :
    authorities.foldlM (AuthoritiesReport.add walk s) told =
      if ∃ a ∈ authorities, report (walk a) s a = .panicked then none
      else some {
        reports := told.reports ++ authorities.map fun a => (a, report (walk a) s a)
        reachedPeers := told.reachedPeers + authorities.countP fun a => (reachedInfo (report (walk a) s a)).isSome
        litep2p := told.litep2p + authorities.countP fun a =>
          (reachedInfo (report (walk a) s a)).any (mentionsLitep2p ·.agentVersion) } := by
  induction authorities generalizing told with
  | nil => simp
  | cons a rest ih =>
    rw [List.foldlM_cons, add_report]
    by_cases panicked : report (walk a) s a = .panicked
    · simp [panicked]
    · simp [panicked, ih, List.countP_cons, Nat.add_assoc, Nat.add_comm]

end Rounds

section Versions
variable {PeerId : Type} {results : List (AuthorityResult PeerId)} {stats : GlobalStats}

/-- What the printed rows of some agent versions add up to: the authorities
whose version was grouped under one of these. -/
theorem rows_counted {order : List String} (tallied : AuthoritiesTallied results stats)
    (walks : HashSet.Walks order stats.agentVersions.keys) (counts : String → Bool) :
    (((sortedVersions order stats.agentVersions).filter (counts ·.1)).map Prod.snd).sum =
      results.countP fun r => r.agentVersion.any fun version => counts (bucket version) := by
  let versions := results.filterMap AuthorityResult.agentVersion
  have row : ∀ v, (stats.agentVersions.lookup v).getD 0 = versions.countP (bucket · = v) := by
    intro v
    have counted : versions.countP (bucket · = v) = results.countP (inBucket v) := by
      rw [List.countP_filterMap]
      refine List.countP_congr fun r _ => ?_
      cases version : r.agentVersion <;> simp [inBucket, version]
    rw [counted, tallied.versions v]
    split
    · rename_i none
      exact none.symm
    · rfl
  have grouped : ∀ version ∈ versions, bucket version ∈ stats.agentVersions.keys := by
    intro version member
    have counted : 0 < versions.countP (bucket · = bucket version) :=
      List.countP_pos_iff.mpr ⟨version, member, decide_eq_true rfl⟩
    rw [← row] at counted
    by_contra absent
    rw [Finmap.mem_keys, ← Finmap.lookup_eq_none] at absent
    rw [absent] at counted
    exact absurd counted (Nat.lt_irrefl 0)
  have groups := HashSet.walk_groups walks bucket grouped
  have sorted := List.mergeSort_perm ((HashSet.iterate order stats.agentVersions.keys).map fun version =>
    (version, (stats.agentVersions.lookup version).getD 0)) fun a b => decide (b.2 ≤ a.2)
  have total : (results.countP fun r => r.agentVersion.any fun version => counts (bucket version)) =
      versions.countP fun version => counts (bucket version) := by
    rw [List.countP_filterMap]
    refine List.countP_congr fun r _ => ?_
    cases r.agentVersion <;> rfl
  rw [total, ← groups.countP_eq, List.countP_flatMap, sortedVersions, ((sorted.filter _).map _).sum_eq,
    HashSet.iterate_walk walks]
  clear walks groups sorted
  induction order with
  | nil => rfl
  | cons v order ih =>
    have own : ((versions.filter (bucket · = v)).countP fun version => counts (bucket version)) =
        if counts v then (stats.agentVersions.lookup v).getD 0 else 0 := by
      rw [row, List.countP_filter, List.countP_congr (q := fun version => counts v && decide (bucket version = v))]
      · cases counts v <;> simp
      · intro version _
        by_cases same : bucket version = v <;> simp [same]
    rw [List.map_cons, List.map_cons, List.sum_cons, Function.comp_apply, own, ← ih, List.filter_cons]
    cases counts v <;> simp

theorem base_name_starts (text : List Char) : baseName text <+: text := by
  induction text using baseName.induct with
  | case1 rest =>
    have kept : stem rest <+: rest := by
      unfold stem
      split <;> exact List.takeWhile_prefix _
    obtain ⟨dropped, whole⟩ := kept
    exact ⟨dropped, congrArg ('/' :: 'v' :: ·) whole⟩
  | case2 c rest other ih =>
    rw [baseName]
    · exact List.cons_prefix_cons.mpr ⟨rfl, ih⟩
    · exact other
  | case3 => exact List.prefix_refl _

/-- A group that mentions the backend is of versions that do. -/
theorem bucket_mentions {version : String} (mentioned : mentionsLitep2p (bucket version) = true) :
    mentionsLitep2p version = true := by
  unfold mentionsLitep2p at mentioned ⊢
  rw [contains_iff] at mentioned ⊢
  by_cases marked : contains version "/v" = true ∧ contains version "(litep2p)" = true
  · have named : "litep2p".toList <:+: "(litep2p)".toList := ⟨['('], [')'], by simp⟩
    exact named.trans (contains_iff.mp marked.2)
  · have kept : (String.ofList (baseName version.toList)).toList <:+: version.toList := by
      rw [String.toList_ofList]
      exact (base_name_starts version.toList).isInfix
    rw [bucket, marker, if_neg marked, String.append_empty] at mentioned
    exact mentioned.trans kept

/-- A version that mentions the backend is in a row that does, or it is not. -/
theorem mentions_split (results : List (AuthorityResult PeerId)) :
    (results.countP fun r => r.agentVersion.any mentionsLitep2p) =
      (results.countP fun r => r.agentVersion.any fun version => mentionsLitep2p (bucket version)) +
        results.countP fun r => r.agentVersion.any fun version =>
          mentionsLitep2p version && !mentionsLitep2p (bucket version) := by
  induction results with
  | nil => rfl
  | cons r results ih =>
    rw [List.countP_cons, List.countP_cons, List.countP_cons, ih]
    cases r.agentVersion with
    | none => simp
    | some version =>
      have grouped := @bucket_mentions version
      cases inRow : mentionsLitep2p (bucket version) with
      | true =>
        have mentioned := grouped inRow
        simp [inRow, mentioned, Nat.add_right_comm]
      | false => cases mentioned : mentionsLitep2p version <;> simp [inRow, mentioned, Nat.add_assoc]

end Versions

section Agreement
variable {PeerId QueryId : Type} [DecidableEq PeerId] {naming : Naming PeerId} {course : Course PeerId}
  {s : AuthorityDiscovery PeerId QueryId} {a : PublicKey}

/-- Every entry has an address that names a peer. -/
def Findable (s : AuthorityDiscovery PeerId QueryId) : Prop :=
  ∀ a entry, s.authorityToDetails.lookup a = some entry → ∃ address ∈ entry, (getPeerId address).isSome

/-- What one command says of an authority and the result the other has for it. -/
structure Tells (naming : Naming PeerId) (told : PublicKey × Report PeerId) (r : AuthorityResult PeerId) : Prop where
  authority : r.authoritySs58 = toSs58 naming.ss58 told.1 naming.version
  record : r.hasDhtRecord = decide (told.2 ≠ .noResponse)
  listed : told.2 ≠ .noAddresses
  peer : r.peerId = told.2.peer.map naming.showPeer
  version : r.agentVersion = (reachedInfo told.2).map Info.agentVersion

/-- The report on an entry is about its first address. -/
theorem first_reported (findable : Findable s) (walks : WalksAddresses course s)
    {entry : Finset (LibP2pMultiaddr PeerId)} (found : s.authorityToDetails.lookup a = some entry) :
    ∃ address rest, course.walk a = address :: rest ∧ HashSet.iterate (course.walk a) entry = address :: rest ∧
      report (course.walk a) s a = match getPeerId address with
        | none => .panicked
        | some peerId => match s.peerInfo.lookup peerId with
          | some info => .reached peerId info
          | none => .unreached peerId := by
  have walked := walks a entry found
  obtain ⟨named, member, _⟩ := findable a entry found
  have listed := (walked.exact named).mpr member
  cases order : course.walk a with
  | nil =>
    rw [order] at listed
    cases listed
  | cons address rest =>
    rw [order] at walked
    refine ⟨address, rest, rfl, HashSet.iterate_walk walked, ?_⟩
    unfold report
    rw [found]
    dsimp only
    rw [HashSet.iterate_walk walked]
    rfl

/-- A report that does not panic says what the result of the check says. -/
theorem report_tells (findable : Findable s) (walks : WalksAddresses course s)
    (ended : report (course.walk a) s a ≠ .panicked) (checks : List (AddressCheck PeerId)) :
    Tells naming (a, report (course.walk a) s a) (authorityResult naming course s a checks) := by
  cases found : s.authorityToDetails.lookup a with
  | none =>
    have silent : report (course.walk a) s a = .noResponse := by
      unfold report
      rw [found]
    unfold authorityResult
    rw [found, silent]
    exact ⟨rfl, rfl, by simp, rfl, rfl⟩
  | some entry =>
    obtain ⟨address, rest, _, walked, reported⟩ := first_reported findable walks found
    cases named : getPeerId address with
    | none =>
      rw [named] at reported
      exact absurd reported ended
    | some peerId =>
      have first : peerOf course s a = some peerId := by
        rw [peerOf, found, Option.bind_some, walked, List.findSome?_cons, named]
      rw [named] at reported
      dsimp only at reported
      unfold authorityResult
      rw [found, reported, first]
      cases told : s.peerInfo.lookup peerId with
      | none => exact ⟨rfl, by simp, by simp, rfl, by simp [told, reachedInfo]⟩
      | some info => exact ⟨rfl, by simp, by simp, rfl, by simp [told, reachedInfo]⟩

/-- An authority has a peer in the check exactly if it has a record. -/
theorem record_named (findable : Findable s) (walks : WalksAddresses course s) (a : PublicKey)
    (checks : List (AddressCheck PeerId)) :
    (authorityResult naming course s a checks).peerId.isSome =
      (authorityResult naming course s a checks).hasDhtRecord := by
  unfold authorityResult
  cases found : s.authorityToDetails.lookup a with
  | none => rfl
  | some entry =>
    obtain ⟨named, member, isNamed⟩ := findable a entry found
    have walked := walks a entry found
    have inside : named ∈ HashSet.iterate (course.walk a) entry :=
      HashSet.mem_iterate.mpr ⟨(walked.exact named).mpr member, member⟩
    dsimp only
    rw [Option.isSome_map, peerOf, found, Option.bind_some, List.findSome?_isSome_iff]
    exact ⟨named, inside, isNamed⟩

/-- The report panics exactly at a first address without a peer id. -/
theorem report_panics_iff (findable : Findable s) (walks : WalksAddresses course s) (a : PublicKey) :
    report (course.walk a) s a = .panicked ↔
      a ∈ s.authorityToDetails ∧ ∃ address, (course.walk a).head? = some address ∧ getPeerId address = none := by
  cases found : s.authorityToDetails.lookup a with
  | none =>
    have silent : report (course.walk a) s a = .noResponse := by
      unfold report
      rw [found]
    simp [silent, Finmap.lookup_eq_none.mp found]
  | some entry =>
    have held : a ∈ s.authorityToDetails := Finmap.mem_of_lookup_eq_some found
    obtain ⟨address, rest, order, _, reported⟩ := first_reported findable walks found
    have head : (course.walk a).head? = some address := by rw [order, List.head?_cons]
    rw [head]
    cases named : getPeerId address with
    | none =>
      rw [named] at reported
      simp [reported, held, named]
    | some peerId =>
      rw [named] at reported
      dsimp only at reported
      rw [reported]
      cases s.peerInfo.lookup peerId <;> simp [named]

/-- Both commands, over the results of one and the report of the other. -/
structure CommandsAgree (naming : Naming PeerId) (told : AuthoritiesReport PeerId)
    (results : List (AuthorityResult PeerId)) (stats : GlobalStats) : Prop where
  each : List.Forall₂ (Tells naming) told.reports results
  reached : told.reachedPeers = stats.identified
  /-- The rows that mention the backend, and the versions that mention it where
  it is cut off. -/
  marked : ∀ order, HashSet.Walks order stats.agentVersions.keys → told.litep2p =
    (((sortedVersions order stats.agentVersions).filter (mentionsLitep2p ·.1)).map Prod.snd).sum +
      results.countP fun r => r.agentVersion.any fun version =>
        mentionsLitep2p version && !mentionsLitep2p (bucket version)

/-- What is counted of the reports is counted of the results. -/
theorem told_counted {told : List (PublicKey × Report PeerId)} {results : List (AuthorityResult PeerId)}
    (each : List.Forall₂ (Tells naming) told results) (counts : Option String → Bool) :
    (told.countP fun entry => counts ((reachedInfo entry.2).map Info.agentVersion)) =
      results.countP fun r => counts r.agentVersion := by
  induction each with
  | nil => rfl
  | cons tells _ ih => rw [List.countP_cons, List.countP_cons, ih, tells.version]

theorem told_agree {stats : GlobalStats} {told : AuthoritiesReport PeerId} {authorities : List PublicKey}
    (findable : Findable s) (walks : WalksAddresses course s)
    (tallied : AuthoritiesTallied (checkResults naming course s authorities) stats)
    (ended : discoverAuthorities course.walk s authorities = some told) :
    told.reports.map Prod.fst = authorities ∧
      CommandsAgree naming told (checkResults naming course s authorities) stats := by
  rw [discoverAuthorities, add_reports] at ended
  split at ended
  · cases ended
  · rename_i panics
    cases ended
    have each : List.Forall₂ (Tells naming) (authorities.map fun a => (a, report (course.walk a) s a))
        (checkResults naming course s authorities) := by
      rw [checkResults, build_results_eq (zip_idx_distinct authorities), List.forall₂_map_right_iff]
      have places : authorities.map (fun a => (a, report (course.walk a) s a)) =
          authorities.zipIdx.map fun entry => (entry.1, report (course.walk entry.1) s entry.1) := by
        conv_lhs => rw [← List.zipIdx_map_fst 0 authorities, List.map_map]
        rfl
      rw [places, List.forall₂_map_left_iff, List.forall₂_same]
      intro entry member
      refine report_tells findable walks (fun panicked => panics ⟨entry.1, ?_, panicked⟩) _
      exact List.fst_mem_of_mem_zipIdx member
    have counted := fun counts => told_counted each counts
    simp only [List.countP_map] at counted
    refine ⟨?_, each, ?_, fun order ordered => ?_⟩
    · rw [List.nil_append, List.map_map]
      exact List.map_id authorities
    · rw [tallied.identified, ← counted Option.isSome]
      simp only [Nat.zero_add]
      exact List.countP_congr fun a _ => by simp
    · rw [rows_counted tallied ordered, ← mentions_split, ← counted fun version => version.any mentionsLitep2p]
      simp only [Nat.zero_add]
      refine List.countP_congr fun a _ => ?_
      cases reached : reachedInfo (report (course.walk a) s a) <;> simp [reached]

end Agreement

section Runs
variable {PeerId NodeKey QueryId : Type} [DecidableEq PeerId] [DecidableEq QueryId]
  {net : Authorities.Network PeerId NodeKey QueryId} {s t : AuthorityDiscovery PeerId QueryId}
  {authorities : List PublicKey} {first : Arrangement authorities} {turns : List (Turn PeerId QueryId authorities)}

theorem turn_findable (findable : Findable s) (l : Turn PeerId QueryId authorities) :
    Findable (s.turn net l) := by
  unfold Findable
  rcases turn_cases net s l with ⟨_, _, _, _, addresses, _, stores, stored⟩ | ⟨_, same⟩
  · have added : ∃ address ∈ addresses.toFinset, (getPeerId address).isSome := by
      obtain ⟨address, listed, named⟩ := decoded_names stores.2
      exact ⟨address, List.mem_toFinset.mpr listed, by rw [named]; rfl⟩
    rw [stored.details]
    refine Finmap.upsert_all findable (fun entry kept => ?_) added
    obtain ⟨address, member, named⟩ := kept
    exact ⟨address, Finset.mem_union_left _ member, named⟩
  · rw [same.details]
    exact findable

theorem run_findable (run : (discovery net authorities first).replay turns = some t) : Findable t := by
  refine run_rule (fun s l held _ => turn_findable held l) ?_ (Machine.meets_trivial turns) run
  have same : SameRecords (.new authorities) (discovery net authorities first).start := start_same
  unfold Findable
  rw [same.details]
  intro a entry found
  cases found

/-- After any discovery the check has a peer for each record. The other command
panics exactly where an authority's first address names no peer; where it does
not, it says of each authority what the check has for it, never that a record
is without addresses, and reaches as many as the check identifies. The rows
that mention the backend add up to what it counts, but for the versions whose
row cuts this off. -/
theorem commands_agree (naming : Naming PeerId) {course : Course PeerId}
    (run : (discovery net authorities first).replay turns = some t) (walks : WalksAddresses course t) :
    ∃ stats, computeGlobalStats (checkResults naming course t authorities) = some stats ∧
      stats.withPeerId = stats.withDhtRecords ∧
      (discoverAuthorities course.walk t authorities = none ↔ ∃ a ∈ authorities, a ∈ t.authorityToDetails ∧
        ∃ address, (course.walk a).head? = some address ∧ getPeerId address = none) ∧
      ∀ told, discoverAuthorities course.walk t authorities = some told →
        told.reports.map Prod.fst = authorities ∧
        CommandsAgree naming told (checkResults naming course t authorities) stats := by
  obtain ⟨stats, computed, -, -, tallied⟩ := global_stats_tallied (checkResults naming course t authorities)
  have findable := run_findable run
  refine ⟨stats, computed, ?_, ?_, fun told ended => told_agree findable walks tallied ended⟩
  · rw [tallied.peers, tallied.records, checkResults, build_results_eq (zip_idx_distinct authorities),
      List.countP_map, List.countP_map]
    exact List.countP_congr fun entry _ => by rw [Function.comp_apply, Function.comp_apply, record_named findable walks]
  · rw [discoverAuthorities, add_reports]
    simp only [report_panics_iff findable walks, ite_eq_left_iff, reduceCtorEq, imp_false, not_not]

private theorem two_listed : (numberedKeys 2).Nodup := numbered_keys_distinct (by decide)

/-- The first of two authorities publishes its address, and its node is identified. -/
def identifiedTurns : List (Turn Nat Nat (numberedKeys 2)) :=
  publishedAnswer ++ [.swarm (.identified 7 ⟨"Parity Polkadot/v1.21.1-c6ba84fb493 (node) (litep2p)"⟩)
    (.listed two_listed) fun _ => none]

/-- It is reached with its backend, the other authority does not answer. -/
theorem identified_commands_agree : ∃ t stats,
    (discovery (.counting (.onePublished [namedAddress])) (numberedKeys 2)
      (.listed two_listed)).replay identifiedTurns = some t ∧
    computeGlobalStats (checkResults unnamed sharedCourse t (numberedKeys 2)) = some stats ∧
    stats.withPeerId = stats.withDhtRecords ∧
    ∃ told, discoverAuthorities sharedCourse.walk t (numberedKeys 2) = some told ∧
      told.reachedPeers = 1 ∧ told.litep2p = 1 ∧ told.reports.map Prod.fst = numberedKeys 2 ∧
      CommandsAgree unnamed told (checkResults unnamed sharedCourse t (numberedKeys 2)) stats := by
  have stored : ((discovery (.counting (.onePublished [namedAddress])) (numberedKeys 2)
      (.listed two_listed)).replay identifiedTurns).map
        (fun t => (t.authorityToDetails.keys, addressesOf t (numberedKey 0))) =
          some ({numberedKey 0}, {namedAddress}) := by
    decide +kernel
  have counted : ((discovery (.counting (.onePublished [namedAddress])) (numberedKeys 2)
      (.listed two_listed)).replay identifiedTurns).map (fun t =>
        (discoverAuthorities sharedCourse.walk t (numberedKeys 2)).map fun told =>
          (told.reachedPeers, told.litep2p)) = some (some (1, 1)) := by
    decide +kernel
  obtain ⟨t, run, shown⟩ := Option.map_eq_some_iff.mp stored
  obtain ⟨keys, own⟩ := Prod.mk.inj shown
  rw [run, Option.map_some, Option.some_inj] at counted
  obtain ⟨told, ended, counters⟩ := Option.map_eq_some_iff.mp counted
  obtain ⟨reached, litep2p⟩ := Prod.mk.inj counters
  have walks : WalksAddresses sharedCourse t := by
    intro a entry held
    have member := Finmap.mem_keys.mpr (Finmap.mem_of_lookup_eq_some held)
    rw [keys, Finset.mem_singleton] at member
    subst member
    rw [addressesOf, held, Option.getD_some] at own
    rw [own]
    exact ⟨List.nodup_singleton _, fun address => by simp [sharedCourse]⟩
  obtain ⟨stats, computed, peers, -, agree⟩ := commands_agree unnamed run walks
  exact ⟨t, stats, run, computed, peers, told, ended, reached, litep2p, agree told ended⟩

end Runs
end Subp2pExplorer.Check
