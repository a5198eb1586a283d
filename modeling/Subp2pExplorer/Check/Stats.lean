import Subp2pExplorer.Check.Connectivity
import Subp2pExplorer.Check.Versions

/-! The global statistics of a check. They are counted in one pass over the
results, and are what counting each of them alone would give. -/
namespace Subp2pExplorer.Check
open Lib Authorities Subp2pExplorer.Types

/-- Aggregated result of checking a single authority. -/
structure AuthorityResult (PeerId : Type) where
  authoritySs58 : String
  stashSs58 : Option String
  identityName : Option String
  peerId : Option String
  agentVersion : Option String
  hasDhtRecord : Bool
  addresses : List (AddressCheck PeerId)

/-- Global statistics computed from all authority results. -/
structure GlobalStats where
  totalAuthorities : Nat
  withIdentity : Nat
  withDhtRecords : Nat
  withPeerId : Nat
  identified : Nat
  totalAddresses : Nat
  publicAddresses : Nat
  privateAddresses : Nat
  reachablePublic : Nat
  unreachablePublic : Nat
  reachableAuthorities : Nat
  fullyReachableAuthorities : Nat
  agentVersions : Map String Nat
  /-- Number of addresses where libp2p dial succeeded. -/
  dialSuccess : Nat
  /-- Number of addresses where libp2p dial failed. -/
  dialFailed : Nat
  /-- Number of addresses with no dial outcome. -/
  dialPending : Nat

def GlobalStats.new (totalAuthorities : Nat) : GlobalStats where
  totalAuthorities := totalAuthorities
  withIdentity := 0
  withDhtRecords := 0
  withPeerId := 0
  identified := 0
  totalAddresses := 0
  publicAddresses := 0
  privateAddresses := 0
  reachablePublic := 0
  unreachablePublic := 0
  reachableAuthorities := 0
  fullyReachableAuthorities := 0
  agentVersions := ∅
  dialSuccess := 0
  dialFailed := 0
  dialPending := 0

def AddressResult.isOk : AddressResult → Bool
  | .ok => true
  | _ => false

def AddressResult.isFailed : AddressResult → Bool
  | .failed _ => true
  | _ => false

def AddressResult.isSkipped : AddressResult → Bool
  | .skipped _ => true
  | _ => false

section Stats
variable {PeerId : Type}

/-- The round of the inner loop for one address. -/
def addAddress (stats : GlobalStats) (a : AddressCheck PeerId) : GlobalStats :=
  let stats := { stats with totalAddresses := stats.totalAddresses + 1 }
  let stats :=
    if a.isPublic then
      let stats := { stats with publicAddresses := stats.publicAddresses + 1 }
      match a.result with
      | .ok => { stats with reachablePublic := stats.reachablePublic + 1 }
      | .failed _ => { stats with unreachablePublic := stats.unreachablePublic + 1 }
      | .skipped _ => stats
    else { stats with privateAddresses := stats.privateAddresses + 1 }
  match a.dialOutcome with
  | some .success => { stats with dialSuccess := stats.dialSuccess + 1 }
  | some (.failed _) => { stats with dialFailed := stats.dialFailed + 1 }
  | none => { stats with dialPending := stats.dialPending + 1 }

/-- The public addresses that were tested. -/
def pubTested (r : AuthorityResult PeerId) : List (AddressCheck PeerId) :=
  r.addresses.filter fun a => a.isPublic && !a.result.isSkipped

def anyOk (r : AuthorityResult PeerId) : Bool := r.addresses.any (·.result.isOk)

def allPubOk (r : AuthorityResult PeerId) : Bool := !(pubTested r).isEmpty && (pubTested r).all (·.result.isOk)

/-- An agent version counted, normalised; nothing where that panics. -/
def countVersion (stats : GlobalStats) : Option String → Option GlobalStats
  | some v => do
    let normalized ← normalizeAgentVersion v
    return { stats with
      identified := stats.identified + 1
      agentVersions := stats.agentVersions.upsert normalized (· + 1) 1 }
  | none => some stats

/-- A counter that counts what it is shown. -/
def tick (count : Nat) (counts : Bool) : Nat := if counts then count + 1 else count

/-- The round of the loop for one authority. -/
def addAuthority (stats : GlobalStats) (r : AuthorityResult PeerId) : Option GlobalStats := do
  let stats ← countVersion stats r.agentVersion
  let stats := { stats with
    withIdentity := tick stats.withIdentity r.identityName.isSome
    withDhtRecords := tick stats.withDhtRecords r.hasDhtRecord
    withPeerId := tick stats.withPeerId r.peerId.isSome
    reachableAuthorities := tick stats.reachableAuthorities (anyOk r)
    fullyReachableAuthorities := tick stats.fullyReachableAuthorities (allPubOk r) }
  return r.addresses.foldl addAddress stats

/-- `compute_global_stats`. -/
def computeGlobalStats (results : List (AuthorityResult PeerId)) : Option GlobalStats :=
  results.foldlM addAuthority (.new results.length)

def AddressCheck.dialed (a : AddressCheck PeerId) : Bool := a.dialOutcome.any DialOutcome.isSuccess

def AddressCheck.refused (a : AddressCheck PeerId) : Bool := a.dialOutcome.any DialOutcome.isFailed

/-- The bucket of an agent version. -/
def bucket (version : String) : String := .ofList (baseName version.toList) ++ marker version

def inBucket (bucketed : String) (r : AuthorityResult PeerId) : Bool := r.agentVersion.map bucket = some bucketed

/-- All checks of all authorities. -/
def allChecks (results : List (AuthorityResult PeerId)) : List (AddressCheck PeerId) :=
  results.flatMap AuthorityResult.addresses

/-- What the statistics of addresses count. -/
structure AddressesTallied (checks : List (AddressCheck PeerId)) (stats : GlobalStats) : Prop where
  total : stats.totalAddresses = checks.length
  isPublic : stats.publicAddresses = checks.countP (·.isPublic)
  isPrivate : stats.privateAddresses = checks.countP (!·.isPublic)
  reachable : stats.reachablePublic = checks.countP fun a => a.isPublic && a.result.isOk
  unreachable : stats.unreachablePublic = checks.countP fun a => a.isPublic && a.result.isFailed
  success : stats.dialSuccess = checks.countP (·.dialed)
  failed : stats.dialFailed = checks.countP (·.refused)
  pending : stats.dialPending = checks.countP (·.dialOutcome.isNone)

/-- What the statistics of authorities count. -/
structure AuthoritiesTallied (results : List (AuthorityResult PeerId)) (stats : GlobalStats) : Prop where
  identity : stats.withIdentity = results.countP (·.identityName.isSome)
  records : stats.withDhtRecords = results.countP (·.hasDhtRecord)
  peers : stats.withPeerId = results.countP (·.peerId.isSome)
  identified : stats.identified = results.countP (·.agentVersion.isSome)
  reachable : stats.reachableAuthorities = results.countP anyOk
  fully : stats.fullyReachableAuthorities = results.countP allPubOk
  versions : ∀ v, stats.agentVersions.lookup v =
    if results.countP (inBucket v) = 0 then none else some (results.countP (inBucket v))

theorem add_address_tallied {checks : List (AddressCheck PeerId)} {stats : GlobalStats}
    (tallied : AddressesTallied checks stats) (a : AddressCheck PeerId) :
    AddressesTallied (checks ++ [a]) (addAddress stats a) := by
  obtain ⟨total, isPublic, isPrivate, reachable, unreachable, success, failed, pending⟩ := tallied
  obtain ⟨short, shown, result, outcome, full⟩ := a
  unfold addAddress
  cases shown with
  | false =>
    cases outcome with
    | none => constructor <;> simp [*, List.countP_append, AddressCheck.dialed, AddressCheck.refused]
    | some outcome =>
      cases outcome <;> constructor <;>
        simp [*, List.countP_append, AddressCheck.dialed, AddressCheck.refused, DialOutcome.isSuccess,
          DialOutcome.isFailed]
  | true =>
    cases result <;> cases outcome with
    | none =>
      constructor <;>
        simp [*, List.countP_append, AddressCheck.dialed, AddressCheck.refused, AddressResult.isOk,
          AddressResult.isFailed]
    | some outcome =>
      cases outcome <;> constructor <;>
        simp [*, List.countP_append, AddressCheck.dialed, AddressCheck.refused, DialOutcome.isSuccess,
          DialOutcome.isFailed, AddressResult.isOk, AddressResult.isFailed]

/-- Counting an address leaves the counts of authorities alone. -/
theorem add_address_authorities {results : List (AuthorityResult PeerId)} {stats : GlobalStats}
    (tallied : AuthoritiesTallied results stats) (a : AddressCheck PeerId) :
    AuthoritiesTallied results (addAddress stats a) ∧
      (addAddress stats a).totalAuthorities = stats.totalAuthorities := by
  obtain ⟨identity, records, peers, identified, reachable, fully, versions⟩ := tallied
  obtain ⟨short, shown, result, outcome, full⟩ := a
  unfold addAddress
  cases shown with
  | false => rcases outcome with _ | _ | _ <;> exact ⟨⟨identity, records, peers, identified, reachable, fully, versions⟩, rfl⟩
  | true =>
    cases result <;> rcases outcome with _ | _ | _ <;>
      exact ⟨⟨identity, records, peers, identified, reachable, fully, versions⟩, rfl⟩

theorem add_addresses_tallied {results : List (AuthorityResult PeerId)} {checks : List (AddressCheck PeerId)}
    {stats : GlobalStats} (more : List (AddressCheck PeerId)) (addresses : AddressesTallied checks stats)
    (authorities : AuthoritiesTallied results stats) :
    AddressesTallied (checks ++ more) (more.foldl addAddress stats) ∧
      AuthoritiesTallied results (more.foldl addAddress stats) ∧
      (more.foldl addAddress stats).totalAuthorities = stats.totalAuthorities := by
  induction more generalizing checks stats with
  | nil =>
    rw [List.append_nil]
    exact ⟨addresses, authorities, rfl⟩
  | cons a rest ih =>
    obtain ⟨kept, total⟩ := add_address_authorities authorities a
    have later := ih (add_address_tallied addresses a) kept
    rw [List.append_assoc, total] at later
    exact later

private theorem tick_count {α : Type} (counts : α → Bool) (past : List α) (a : α) :
    tick (past.countP counts) (counts a) = (past ++ [a]).countP counts := by
  rw [List.countP_append, tick]
  cases counted : counts a <;> simp [counted]

/-- The counts once the version of an authority is counted. -/
private theorem count_version_tallied {past : List (AuthorityResult PeerId)} {stats : GlobalStats}
    (tallied : AuthoritiesTallied past stats) (r : AuthorityResult PeerId) :
    ∃ identified agentVersions,
      countVersion stats r.agentVersion =
        some { stats with identified := identified, agentVersions := agentVersions } ∧
      identified = (past ++ [r]).countP (·.agentVersion.isSome) ∧
      ∀ v, agentVersions.lookup v =
        if (past ++ [r]).countP (inBucket v) = 0 then none else some ((past ++ [r]).countP (inBucket v)) := by
  cases version : r.agentVersion with
  | none =>
    refine ⟨stats.identified, stats.agentVersions, rfl, ?_, fun v => ?_⟩
    · simp [tallied.identified, version]
    · have apart : [r].countP (inBucket v) = 0 := by simp [inBucket, version]
      rw [List.countP_append, apart, Nat.add_zero]
      exact tallied.versions v
  | some v =>
    have normal : normalizeAgentVersion v = some (bucket v) := normalize_agent_version v
    refine ⟨stats.identified + 1, stats.agentVersions.upsert (bucket v) (· + 1) 1, ?_, ?_, fun other => ?_⟩
    · rw [countVersion, normal]
      rfl
    · simp [tallied.identified, version]
    · by_cases same : other = bucket v
      · subst same
        have own : [r].countP (inBucket (bucket v)) = 1 := by simp [inBucket, version]
        rw [List.countP_append, own, Finmap.lookup_upsert, tallied.versions, if_neg (Nat.succ_ne_zero _)]
        split
        · rename_i none
          rw [none]
          rfl
        · rfl
      · have apart : [r].countP (inBucket other) = 0 := by simp [inBucket, version, Ne.symm same]
        rw [List.countP_append, apart, Nat.add_zero, Finmap.lookup_upsert_ne _ _ _ same]
        exact tallied.versions other

theorem add_authority_tallied {past : List (AuthorityResult PeerId)} {stats : GlobalStats}
    (addresses : AddressesTallied (allChecks past) stats) (authorities : AuthoritiesTallied past stats)
    (r : AuthorityResult PeerId) :
    ∃ stats', addAuthority stats r = some stats' ∧ AddressesTallied (allChecks (past ++ [r])) stats' ∧
      AuthoritiesTallied (past ++ [r]) stats' ∧ stats'.totalAuthorities = stats.totalAuthorities := by
  obtain ⟨identified, agentVersions, counted, ids, versions⟩ := count_version_tallied authorities r
  have checks : allChecks (past ++ [r]) = allChecks past ++ r.addresses := by simp [allChecks]
  let stats₁ : GlobalStats := { stats with
    identified := identified
    agentVersions := agentVersions
    withIdentity := tick stats.withIdentity r.identityName.isSome
    withDhtRecords := tick stats.withDhtRecords r.hasDhtRecord
    withPeerId := tick stats.withPeerId r.peerId.isSome
    reachableAuthorities := tick stats.reachableAuthorities (anyOk r)
    fullyReachableAuthorities := tick stats.fullyReachableAuthorities (allPubOk r) }
  have before : AddressesTallied (allChecks past) stats₁ :=
    ⟨addresses.total, addresses.isPublic, addresses.isPrivate, addresses.reachable, addresses.unreachable,
      addresses.success, addresses.failed, addresses.pending⟩
  have ticked : AuthoritiesTallied (past ++ [r]) stats₁ := {
    identity := by rw [← tick_count, ← authorities.identity]
    records := by rw [← tick_count, ← authorities.records]
    peers := by rw [← tick_count, ← authorities.peers]
    identified := ids
    reachable := by rw [← tick_count, ← authorities.reachable]
    fully := by rw [← tick_count, ← authorities.fully]
    versions := versions }
  obtain ⟨address, authority, total⟩ := add_addresses_tallied r.addresses before ticked
  refine ⟨r.addresses.foldl addAddress stats₁, ?_, checks ▸ address, authority, total⟩
  rw [addAuthority, counted]
  rfl

/-- The statistics of a list of results, and that they are always computed. -/
theorem global_stats_tallied (results : List (AuthorityResult PeerId)) :
    ∃ stats, computeGlobalStats results = some stats ∧ stats.totalAuthorities = results.length ∧
      AddressesTallied (allChecks results) stats ∧ AuthoritiesTallied results stats := by
  have from_past : ∀ (todo past : List (AuthorityResult PeerId)) (stats : GlobalStats),
      AddressesTallied (allChecks past) stats → AuthoritiesTallied past stats →
      ∃ stats', todo.foldlM addAuthority stats = some stats' ∧ stats'.totalAuthorities = stats.totalAuthorities ∧
        AddressesTallied (allChecks (past ++ todo)) stats' ∧ AuthoritiesTallied (past ++ todo) stats' := by
    intro todo
    induction todo with
    | nil =>
      intro past stats addresses authorities
      rw [List.append_nil]
      exact ⟨stats, rfl, rfl, addresses, authorities⟩
    | cons r rest ih =>
      intro past stats addresses authorities
      obtain ⟨stats₁, added, addresses, authorities, same⟩ := add_authority_tallied addresses authorities r
      obtain ⟨stats₂, rest, same', tallied⟩ := ih (past ++ [r]) stats₁ addresses authorities
      refine ⟨stats₂, ?_, same'.trans same, by simpa using tallied⟩
      rw [List.foldlM_cons, added]
      exact rest
  exact from_past results [] (.new results.length) ⟨rfl, rfl, rfl, rfl, rfl, rfl, rfl, rfl⟩
    ⟨rfl, rfl, rfl, rfl, rfl, rfl, fun v => rfl⟩

end Stats
end Subp2pExplorer.Check
