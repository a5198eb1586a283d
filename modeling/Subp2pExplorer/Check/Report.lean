import Subp2pExplorer.Check.Consistency
import Subp2pExplorer.Check.Summary

/-! The sections that are printed, one for each authority, against the summary
below them. With the filter for failing authorities on, a section is left out
exactly if the summary counts its authority as fully reachable. -/
namespace Subp2pExplorer.Check
open Lib Authorities Authorities.AuthorityDiscovery Subp2pExplorer.Types

section Sections
variable {PeerId : Type}

/-- The numbers in the last line of a section. -/
structure SectionTotals where
  total : Nat
  isPublic : Nat
  isPrivate : Nat
  reachable : Nat
  publicTested : Nat
  deriving DecidableEq

def AuthorityResult.totals (r : AuthorityResult PeerId) : SectionTotals where
  total := r.addresses.length
  isPublic := r.addresses.countP (·.isPublic)
  isPrivate := r.addresses.length - r.addresses.countP (·.isPublic)
  reachable := r.addresses.countP (·.result.isOk)
  publicTested := r.addresses.countP fun a => a.isPublic && !a.result.isSkipped

def dialStatus : Option DialOutcome → String
  | some .success => "\x1b[32mOK\x1b[0m"
  | some (.failed e) => "\x1b[31mFAIL\x1b[0m (" ++ e ++ ")"
  | none => "\x1b[33m-\x1b[0m"

def tcpStatus : AddressResult → String
  | .ok => "\x1b[32mOK\x1b[0m"
  | .failed e => "\x1b[31mFAIL\x1b[0m (" ++ e ++ ")"
  | .skipped r => "\x1b[33mSKIP\x1b[0m (" ++ r ++ ")"

def addressLine (maxLen : Nat) (check : AddressCheck PeerId) : String :=
  "    " ++ padRight maxLen check.addressShort ++ " | " ++ (if check.isPublic then "public " else "private") ++
    " | Dial: " ++ dialStatus check.dialOutcome ++ " | TCP: " ++ tcpStatus check.result

def totalsLine (percent : Nat → Nat → String) (t : SectionTotals) : String :=
  "    Reachable: " ++ toString t.reachable ++ "/" ++ toString t.publicTested ++ " public (" ++
    pct percent t.reachable t.publicTested ++ ") | Total: " ++ toString t.total ++ " addrs (" ++
    toString t.isPublic ++ " public, " ++ toString t.isPrivate ++ " private)"

def singleRule : String := .ofList (List.replicate 72 '─')

/-- `print_authority_result`: the lines written. -/
def printAuthorityResult (percent : Nat → Nat → String) (result : AuthorityResult PeerId) (index : Nat) : List String :=
  let head := "  Authority #" ++ toString (index + 1) ++ ": " ++ result.authoritySs58
  if !result.hasDhtRecord then [singleRule, head ++ " — No DHT record"]
  else
    let known := [("  Stash:    ", result.stashSs58), ("  Identity: ", result.identityName),
      ("  PeerId:   ", result.peerId), ("  Agent:    ", result.agentVersion)].filterMap fun shown =>
        shown.2.map (shown.1 ++ ·)
    if result.addresses.isEmpty then singleRule :: head :: known ++ ["  No addresses in DHT record"]
    else
      let maxLen := (result.addresses.map (·.addressShort.utf8ByteSize)).max?.getD 30
      singleRule :: head :: known ++ [""] ++ result.addresses.map (addressLine maxLen) ++
        ["", totalsLine percent result.totals]

/-- The loop of `check_authorities` that prints the sections. -/
def printAuthorities (percent : Nat → Nat → String) (showFailingOnly : Bool) (results : List (AuthorityResult PeerId)) :
    List String :=
  results.zipIdx.flatMap fun (result, i) =>
    if showFailingOnly && !isAuthorityFailing result then [] else printAuthorityResult percent result i

/-- The results that have a section, with their places in the list. -/
def sections (showFailingOnly : Bool) (results : List (AuthorityResult PeerId)) : List (AuthorityResult PeerId × Nat) :=
  results.zipIdx.filter fun entry => !(showFailingOnly && !isAuthorityFailing entry.1)

/-- The lines of a section that show a failed connection. -/
def AuthorityResult.failures (r : AuthorityResult PeerId) : Nat := r.addresses.countP (·.result.isFailed)

variable {results : List (AuthorityResult PeerId)}

theorem flat_map_skipping {α β : Type} (skip : α → Bool) (f : α → List β) (l : List α) :
    (l.flatMap fun a => if skip a then [] else f a) = (l.filter fun a => !skip a).flatMap f := by
  induction l with
  | nil => rfl
  | cons a l ih =>
    rw [List.flatMap_cons, ih]
    cases skipped : skip a <;> simp [skipped]

/-- The lines printed are those of the sections. -/
theorem printed_sections (percent : Nat → Nat → String) (showFailingOnly : Bool) :
    printAuthorities percent showFailingOnly results =
      (sections showFailingOnly results).flatMap fun entry => printAuthorityResult percent entry.1 entry.2 :=
  flat_map_skipping (fun entry : AuthorityResult PeerId × Nat => showFailingOnly && !isAuthorityFailing entry.1) _ _

theorem section_place {showFailingOnly : Bool} {entry : AuthorityResult PeerId × Nat}
    (member : entry ∈ sections showFailingOnly results) : results[entry.2]? = some entry.1 :=
  List.mem_zipIdx_iff_getElem?.mp (List.mem_filter.mp member).1

/-- What is added up over the sections is added up over the results that have one. -/
theorem sections_map {α : Type} (showFailingOnly : Bool) (f : AuthorityResult PeerId → α) :
    (sections showFailingOnly results).map (fun entry => f entry.1) =
      (results.filter fun r => !(showFailingOnly && !isAuthorityFailing r)).map f := by
  conv_rhs => rw [← List.zipIdx_map_fst 0 results, List.filter_map, List.map_map]
  rfl

/-- An authority that is not failing has no failed connection. -/
theorem passing_failures {r : AuthorityResult PeerId} (built : r.Built) (passing : isAuthorityFailing r = false) :
    r.failures = 0 := by
  rw [AuthorityResult.failures, List.countP_eq_zero]
  intro check member failed
  have fully : allPubOk r = true := by
    have same := failing_iff_not_fully r built
    rw [passing] at same
    simpa using same.symm
  have untested : check.result.isSkipped = false := by
    cases result : check.result with
    | ok => rfl
    | failed reason => rfl
    | skipped reason =>
      rw [result] at failed
      cases failed
  have shown : check.isPublic = true := by
    by_contra hidden
    have skipped := built.private_skipped check member (by simpa using hidden)
    rw [untested] at skipped
    cases skipped
  have tested : check ∈ pubTested r := List.mem_filter.mpr ⟨member, by rw [shown, untested]; rfl⟩
  have ok := List.all_eq_true.mp (Bool.and_eq_true_iff.mp fully).2 check tested
  rw [failed_iff_not_ok untested, ok] at failed
  cases failed

/-- A connection that was tried was tried at a public address. -/
theorem tested_public {r : AuthorityResult PeerId} (built : r.Built) {counts : AddressResult → Bool}
    (tried : ∀ result, counts result = true → result.isSkipped = false) :
    r.addresses.countP (fun check => counts check.result) =
      r.addresses.countP fun check => check.isPublic && counts check.result := by
  refine List.countP_congr fun check member => ?_
  cases shown : check.isPublic with
  | true => rfl
  | false =>
    cases counted : counts check.result with
    | false => rfl
    | true =>
      have untested := tried _ counted
      rw [built.private_skipped check member shown] at untested
      cases untested

/-- The totals of a section add up. -/
theorem totals_split {r : AuthorityResult PeerId} (built : r.Built) :
    r.totals.isPublic + r.totals.isPrivate = r.totals.total ∧ r.totals.publicTested ≤ r.totals.isPublic ∧
      r.totals.reachable + r.failures = r.totals.publicTested := by
  refine ⟨Nat.add_sub_of_le List.countP_le_length, List.countP_mono_left fun check _ tested => ?_, ?_⟩
  · exact (Bool.and_eq_true_iff.mp tested).1
  · have split := public_split r.addresses
    have skipped : r.addresses.countP (·.isPublic) = r.addresses.countP (fun a => a.isPublic && !a.result.isSkipped) +
        r.addresses.countP fun a => a.isPublic && a.result.isSkipped := by
      have parts := List.countP_eq_countP_filter_add r.addresses (·.isPublic) (·.result.isSkipped)
      rw [parts, List.countP_filter, List.countP_filter, Nat.add_comm]
    have reachable : r.totals.reachable = r.addresses.countP fun a => a.isPublic && a.result.isOk :=
      tested_public built fun result ok => by cases result <;> first | rfl | cases ok
    have failures : r.failures = r.addresses.countP fun a => a.isPublic && a.result.isFailed :=
      tested_public built fun result failed => by cases result <;> first | rfl | cases failed
    rw [reachable, failures]
    show _ = r.addresses.countP fun a => a.isPublic && !a.result.isSkipped
    omega

theorem sum_checks (results : List (AuthorityResult PeerId)) (counts : AddressCheck PeerId → Bool) :
    (results.map fun r => r.addresses.countP counts).sum = (allChecks results).countP counts :=
  List.countP_flatMap.symm

/-- What the sections of some results are for its statistics. -/
structure SectionsAgree (percent : Nat → Nat → String) (results : List (AuthorityResult PeerId)) (stats : GlobalStats) :
    Prop where
  /-- The sections are what is printed, under the places their authorities have. -/
  printed : ∀ failingOnly, printAuthorities percent failingOnly results =
    (sections failingOnly results).flatMap fun entry => printAuthorityResult percent entry.1 entry.2
  place : ∀ failingOnly, ∀ entry ∈ sections failingOnly results, results[entry.2]? = some entry.1
  /-- Their totals add up to those of the summary. -/
  total : ((sections false results).map fun entry => entry.1.totals.total).sum = stats.totalAddresses
  isPublic : ((sections false results).map fun entry => entry.1.totals.isPublic).sum = stats.publicAddresses
  isPrivate : ((sections false results).map fun entry => entry.1.totals.isPrivate).sum = stats.privateAddresses
  reachable : ((sections false results).map fun entry => entry.1.totals.reachable).sum = stats.reachablePublic
  failures : ((sections false results).map fun entry => entry.1.failures).sum = stats.unreachablePublic
  /-- The filter leaves the fully reachable authorities out, and no failure. -/
  hidden : (sections true results).length + stats.fullyReachableAuthorities = stats.totalAuthorities
  shown : ((sections true results).map fun entry => entry.1.failures).sum = stats.unreachablePublic
  split : ∀ failingOnly, ∀ entry ∈ sections failingOnly results,
    entry.1.totals.isPublic + entry.1.totals.isPrivate = entry.1.totals.total ∧
      entry.1.totals.publicTested ≤ entry.1.totals.isPublic ∧
      entry.1.totals.reachable + entry.1.failures = entry.1.totals.publicTested

theorem shown_failures (built : ∀ r ∈ results, r.Built) :
    ((results.filter isAuthorityFailing).map AuthorityResult.failures).sum = (results.map AuthorityResult.failures).sum := by
  induction results with
  | nil => rfl
  | cons r rest ih =>
    have others := ih fun r' member => built r' (List.mem_cons_of_mem _ member)
    rw [List.map_cons, List.sum_cons, ← others]
    cases failing : isAuthorityFailing r with
    | true => rw [List.filter_cons_of_pos failing, List.map_cons, List.sum_cons]
    | false =>
      rw [List.filter_cons_of_neg (by simp [failing]), passing_failures (built r List.mem_cons_self) failing, Nat.zero_add]

theorem built_sections_agree (percent : Nat → Nat → String) (built : ∀ r ∈ results, r.Built) :
    ∃ stats, computeGlobalStats results = some stats ∧ SectionsAgree percent results stats := by
  obtain ⟨stats, computed, total, checks, tallied⟩ := global_stats_tallied results
  have all : ∀ f : AuthorityResult PeerId → Nat,
      ((sections false results).map fun entry => f entry.1).sum = (results.map f).sum := by
    intro f
    rw [sections_map]
    exact congrArg (fun l => (l.map f).sum) (List.filter_eq_self.mpr fun _ _ => rfl)
  have shown : ∀ f : AuthorityResult PeerId → Nat,
      (sections true results).map (fun entry => f entry.1) = (results.filter isAuthorityFailing).map f := by
    intro f
    rw [sections_map]
    simp
  have tried : ∀ counts : AddressResult → Bool, (∀ result, counts result = true → result.isSkipped = false) →
      (results.map fun r => r.addresses.countP fun check => counts check.result).sum =
        (allChecks results).countP fun check => check.isPublic && counts check.result := by
    intro counts untested
    rw [← sum_checks]
    exact congrArg List.sum (List.map_congr_left fun r member => tested_public (built r member) untested)
  refine ⟨stats, computed, ?_⟩
  constructor
  case printed => exact printed_sections percent
  case place => exact fun _ _ => section_place
  case total =>
    refine (all fun r => r.totals.total).trans ?_
    rw [checks.total, allChecks, List.length_flatMap]
    rfl
  case isPublic =>
    refine (all fun r => r.totals.isPublic).trans ?_
    rw [checks.isPublic]
    exact sum_checks results _
  case isPrivate =>
    refine (all fun r => r.totals.isPrivate).trans ?_
    rw [checks.isPrivate, ← sum_checks]
    refine congrArg List.sum (List.map_congr_left fun r _ => ?_)
    have split := count_or_not AddressCheck.isPublic r.addresses
    show r.addresses.length - r.addresses.countP AddressCheck.isPublic = _
    omega
  case reachable =>
    refine (all fun r => r.totals.reachable).trans ?_
    rw [checks.reachable]
    exact tried AddressResult.isOk fun result ok => by cases result <;> first | rfl | cases ok
  case failures =>
    refine (all AuthorityResult.failures).trans ?_
    rw [checks.unreachable]
    exact tried AddressResult.isFailed fun result failed => by cases result <;> first | rfl | cases failed
  case hidden =>
    have count := congrArg List.length (shown AuthorityResult.failures)
    rw [List.length_map, List.length_map, ← List.countP_eq_length_filter] at count
    obtain ⟨stats', computed', consistent⟩ := global_stats_consistent results built
    cases computed.symm.trans computed'
    rw [count, Nat.add_comm]
    exact consistent.failing
  case shown =>
    rw [shown, shown_failures built, checks.unreachable]
    exact tried AddressResult.isFailed fun result failed => by cases result <;> first | rfl | cases failed
  case split =>
    exact fun _ entry member => totals_split (built entry.1 (List.mem_of_getElem? (section_place member)))

end Sections

section Runs
variable {PeerId QueryId : Type} [DecidableEq PeerId]

/-- Whatever a discovery found and however its addresses were checked, the
sections and the summary of a check agree, and the filter for failing
authorities hides no failure. -/
theorem report_agrees (percent : Nat → Nat → String) (naming : Naming PeerId) (course : Course PeerId)
    (s : AuthorityDiscovery PeerId QueryId) (authorities : List PublicKey) :
    ∃ stats, computeGlobalStats (checkResults naming course s authorities) = some stats ∧
      stats.totalAuthorities = authorities.length ∧
      SectionsAgree percent (checkResults naming course s authorities) stats := by
  obtain ⟨stats, computed, agree⟩ := built_sections_agree percent (check_results_built (s := s) authorities)
  refine ⟨stats, computed, ?_, agree⟩
  obtain ⟨stats', computed', total, -⟩ := global_stats_tallied (checkResults naming course s authorities)
  cases computed.symm.trans computed'
  rw [total, checkResults, build_results_eq (zip_idx_distinct authorities), List.length_map, List.length_zipIdx]

end Runs
end Subp2pExplorer.Check
