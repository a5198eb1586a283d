import Subp2pExplorer.Check.Consistency

/-! The JSON report. It is all of the results but the full addresses, so a
reader of the file has the statistics twice: as they were written, and as they
are computed again from what the file says of each authority. -/
namespace Subp2pExplorer.Check
open Lib Authorities Authorities.AuthorityDiscovery Subp2pExplorer.Types

/-- `serde_json::Value`, with the numbers that reports have. -/
inductive Value where
  | null
  | bool (b : Bool)
  | number (n : Nat)
  | string (s : String)
  | array (values : List Value)
  | object (fields : List (String × Value))

section Writing

/-- A tagged enumeration: the variant as `status`, what it holds as `reason`. -/
def tagged (status : String) (reason : Option String) : Value :=
  .object (("status", .string status) :: (reason.map fun r => ("reason", Value.string r)).toList)

def AddressResult.toJson : AddressResult → Value
  | .ok => tagged "Ok" none
  | .failed reason => tagged "Failed" (some reason)
  | .skipped reason => tagged "Skipped" (some reason)

def dialOutcomeToJson : DialOutcome → Value
  | .success => tagged "Success" none
  | .failed reason => tagged "Failed" (some reason)

/-- A field that is null where there is nothing. -/
def nullable : Option String → Value
  | some s => .string s
  | none => .null

/-- A field that is left out where there is nothing. -/
def skipping (key : String) (value : Option Value) : List (String × Value) := (value.map (key, ·)).toList

variable {PeerId : Type}

/-- The full address is not written. -/
def AddressCheck.toJson (check : AddressCheck PeerId) : Value :=
  .object ([("address_short", .string check.addressShort), ("is_public", .bool check.isPublic),
    ("result", check.result.toJson)] ++ skipping "dial_outcome" (check.dialOutcome.map dialOutcomeToJson))

def AuthorityResult.toJson (r : AuthorityResult PeerId) : Value :=
  .object ([("authority_ss58", .string r.authoritySs58)] ++ skipping "stash_ss58" (r.stashSs58.map .string) ++
    [("identity_name", nullable r.identityName), ("peer_id", nullable r.peerId),
      ("agent_version", nullable r.agentVersion), ("has_dht_record", .bool r.hasDhtRecord),
      ("addresses", .array (r.addresses.map AddressCheck.toJson))])

/-- The versions are written in the order in which their map is walked. -/
def GlobalStats.toJson (order : List String) (stats : GlobalStats) : Value :=
  .object [("total_authorities", .number stats.totalAuthorities), ("with_identity", .number stats.withIdentity),
    ("with_dht_records", .number stats.withDhtRecords), ("with_peer_id", .number stats.withPeerId),
    ("identified", .number stats.identified), ("total_addresses", .number stats.totalAddresses),
    ("public_addresses", .number stats.publicAddresses), ("private_addresses", .number stats.privateAddresses),
    ("reachable_public", .number stats.reachablePublic), ("unreachable_public", .number stats.unreachablePublic),
    ("reachable_authorities", .number stats.reachableAuthorities),
    ("fully_reachable_authorities", .number stats.fullyReachableAuthorities),
    ("agent_versions", .object ((stats.agentVersions.iterate order).map fun entry => (entry.1, .number entry.2))),
    ("dial_success", .number stats.dialSuccess), ("dial_failed", .number stats.dialFailed),
    ("dial_pending", .number stats.dialPending)]

/-- The report of `check_authorities`. -/
structure JsonReport (PeerId : Type) where
  chain : Option String
  rpcUrl : String
  authorities : List (AuthorityResult PeerId)
  stats : GlobalStats

def JsonReport.toJson (order : List String) (report : JsonReport PeerId) : Value :=
  .object [("chain", nullable report.chain), ("rpc_url", .string report.rpcUrl),
    ("authorities", .array (report.authorities.map AuthorityResult.toJson)), ("stats", report.stats.toJson order)]

end Writing

/-! ## Reading a report -/

namespace Value

def get (key : String) : Value → Option Value
  | .object fields => fields.lookup key
  | _ => none

def asString : Value → Option String
  | .string s => some s
  | _ => none

def asBool : Value → Option Bool
  | .bool b => some b
  | _ => none

def asNat : Value → Option Nat
  | .number n => some n
  | _ => none

def asArray : Value → Option (List Value)
  | .array values => some values
  | _ => none

def asNullable : Value → Option (Option String)
  | .null => some none
  | .string s => some (some s)
  | _ => none

end Value

section Reading

/-- An optional field: absent, or read. -/
def optional {α : Type} (read : Value → Option α) : Option Value → Option (Option α)
  | none => some none
  | some value => (read value).map some

def readResult (value : Value) : Option AddressResult := do
  match ← (← value.get "status").asString with
  | "Ok" => some .ok
  | "Failed" => return .failed (← (← value.get "reason").asString)
  | "Skipped" => return .skipped (← (← value.get "reason").asString)
  | _ => none

def readOutcome (value : Value) : Option DialOutcome := do
  match ← (← value.get "status").asString with
  | "Success" => some .success
  | "Failed" => return .failed (← (← value.get "reason").asString)
  | _ => none

variable (PeerId : Type)

def readCheck (value : Value) : Option (AddressCheck PeerId) := do
  return {
    addressShort := ← (← value.get "address_short").asString
    isPublic := ← (← value.get "is_public").asBool
    result := ← readResult (← value.get "result")
    dialOutcome := ← optional readOutcome (value.get "dial_outcome")
    fullAddress := none }

def readAuthority (value : Value) : Option (AuthorityResult PeerId) := do
  return {
    authoritySs58 := ← (← value.get "authority_ss58").asString
    stashSs58 := ← optional Value.asString (value.get "stash_ss58")
    identityName := ← (← value.get "identity_name").asNullable
    peerId := ← (← value.get "peer_id").asNullable
    agentVersion := ← (← value.get "agent_version").asNullable
    hasDhtRecord := ← (← value.get "has_dht_record").asBool
    addresses := ← (← (← value.get "addresses").asArray).mapM (readCheck PeerId) }

def readVersions : Value → Option (Map String Nat)
  | .object fields => (fields.mapM fun (entry : String × Value) => entry.2.asNat.map (entry.1, ·)).map Finmap.collect
  | _ => none

def readStats (value : Value) : Option GlobalStats := do
  let count (key : String) : Option Nat := do (← value.get key).asNat
  return {
    totalAuthorities := ← count "total_authorities"
    withIdentity := ← count "with_identity"
    withDhtRecords := ← count "with_dht_records"
    withPeerId := ← count "with_peer_id"
    identified := ← count "identified"
    totalAddresses := ← count "total_addresses"
    publicAddresses := ← count "public_addresses"
    privateAddresses := ← count "private_addresses"
    reachablePublic := ← count "reachable_public"
    unreachablePublic := ← count "unreachable_public"
    reachableAuthorities := ← count "reachable_authorities"
    fullyReachableAuthorities := ← count "fully_reachable_authorities"
    agentVersions := ← readVersions (← value.get "agent_versions")
    dialSuccess := ← count "dial_success"
    dialFailed := ← count "dial_failed"
    dialPending := ← count "dial_pending" }

def readReport (value : Value) : Option (JsonReport PeerId) := do
  return {
    chain := ← (← value.get "chain").asNullable
    rpcUrl := ← (← value.get "rpc_url").asString
    authorities := ← (← (← value.get "authorities").asArray).mapM (readAuthority PeerId)
    stats := ← readStats (← value.get "stats") }

variable {PeerId : Type}

theorem read_result (result : AddressResult) : readResult result.toJson = some result := by
  cases result <;> rfl

theorem read_outcome (outcome : DialOutcome) : readOutcome (dialOutcomeToJson outcome) = some outcome := by
  cases outcome <;> rfl

/-- A check as a report shows it. -/
def AddressCheck.published (check : AddressCheck PeerId) : AddressCheck PeerId := { check with fullAddress := none }

def AuthorityResult.published (r : AuthorityResult PeerId) : AuthorityResult PeerId :=
  { r with addresses := r.addresses.map AddressCheck.published }

theorem read_check (check : AddressCheck PeerId) : readCheck PeerId check.toJson = some check.published := by
  obtain ⟨short, shown, result, outcome, full⟩ := check
  have back := read_result result
  cases outcome with
  | none =>
    unfold readCheck AddressCheck.toJson
    simp [Value.get, List.lookup_cons, skipping, Value.asString, Value.asBool, back, optional, AddressCheck.published]
  | some outcome =>
    have back' := read_outcome outcome
    unfold readCheck AddressCheck.toJson
    simp [Value.get, List.lookup_cons, skipping, Value.asString, Value.asBool, back, back', optional, AddressCheck.published]

/-- What is read back one by one is read back together. -/
theorem read_all {α β : Type} {write : α → Value} {read : Value → Option β} {publish : α → β}
    (back : ∀ a, read (write a) = some (publish a)) (items : List α) :
    (items.map write).mapM read = some (items.map publish) := by
  induction items with
  | nil => rfl
  | cons a items ih =>
    rw [List.map_cons, List.mapM_cons, back, ih]
    rfl

@[simp] theorem as_nullable (s : Option String) : (nullable s).asNullable = some s := by
  cases s <;> rfl

theorem read_authority (r : AuthorityResult PeerId) : readAuthority PeerId r.toJson = some r.published := by
  obtain ⟨authority, stash, identity, peer, agent, record, addresses⟩ := r
  have back := read_all read_check addresses
  cases stash <;>
  · unfold readAuthority AuthorityResult.toJson
    simp [Value.get, List.lookup_cons, skipping, Value.asString, Value.asBool, Value.asArray, optional, back,
      AuthorityResult.published]

theorem read_versions {order : List String} {versions : Map String Nat} (walks : HashSet.Walks order versions.keys) :
    readVersions (.object ((versions.iterate order).map fun entry => (entry.1, .number entry.2))) = some versions := by
  have back : ((versions.iterate order).map fun entry => (entry.1, Value.number entry.2)).mapM
      (fun entry => entry.2.asNat.map (entry.1, ·)) = some (versions.iterate order) := by
    induction versions.iterate order with
    | nil => rfl
    | cons entry entries ih =>
      rw [List.map_cons, List.mapM_cons, ih]
      rfl
  rw [readVersions, back, Option.map_some, Finmap.collect_iterate walks]

theorem read_stats {order : List String} (stats : GlobalStats) (walks : HashSet.Walks order stats.agentVersions.keys) :
    readStats (stats.toJson order) = some stats := by
  have versions := read_versions walks
  unfold readStats GlobalStats.toJson
  simp [Value.get, List.lookup_cons, Value.asNat, versions]

theorem read_report {order : List String} (report : JsonReport PeerId)
    (walks : HashSet.Walks order report.stats.agentVersions.keys) :
    readReport PeerId (report.toJson order) =
      some { report with authorities := report.authorities.map AuthorityResult.published } := by
  have authorities := read_all read_authority report.authorities
  have stats := read_stats report.stats walks
  unfold readReport JsonReport.toJson
  simp [Value.get, List.lookup_cons, Value.asString, Value.asArray, authorities, stats]

/-- The statistics do not read what the report leaves out. -/
theorem add_published (stats : GlobalStats) (r : AuthorityResult PeerId) :
    addAuthority stats r.published = addAuthority stats r := by
  have tested : pubTested r.published = (pubTested r).map AddressCheck.published := List.filter_map ..
  have any : anyOk r.published = anyOk r := List.any_map
  have all : allPubOk r.published = allPubOk r := by
    unfold allPubOk
    rw [tested, List.isEmpty_map, List.all_map]
    rfl
  unfold addAuthority
  rw [any, all]
  simp only [AuthorityResult.published, List.foldl_map]
  rfl

theorem stats_published (results : List (AuthorityResult PeerId)) :
    computeGlobalStats (results.map AuthorityResult.published) = computeGlobalStats results := by
  unfold computeGlobalStats
  rw [List.length_map, List.foldlM_map]
  simp only [add_published]

/-- The file that is written says all there is to say of a check but the full
addresses, and its statistics are those of the authorities it lists: a reader
who computes them again gets what the file says, in whatever order the versions
were written. So files that are the same are of results that are. -/
theorem report_recomputed (chain : Option String) (rpcUrl : String) (results : List (AuthorityResult PeerId))
    (order : HashSet.Order String) :
    ∃ stats, computeGlobalStats results = some stats ∧
      (∃ report, readReport PeerId
          ((JsonReport.mk chain rpcUrl results stats).toJson (order.walk stats.agentVersions.keys)) = some report ∧
        report.chain = chain ∧ report.rpcUrl = rpcUrl ∧ report.authorities = results.map AuthorityResult.published ∧
        report.stats = stats ∧ computeGlobalStats report.authorities = some report.stats) ∧
      ∀ (other : JsonReport PeerId) (order' : HashSet.Order String),
        other.toJson (order'.walk other.stats.agentVersions.keys) =
          (JsonReport.mk chain rpcUrl results stats).toJson (order.walk stats.agentVersions.keys) →
        other.chain = chain ∧ other.rpcUrl = rpcUrl ∧ other.stats = stats ∧
          other.authorities.map AuthorityResult.published = results.map AuthorityResult.published := by
  obtain ⟨stats, computed, -⟩ := global_stats_tallied results
  have read := read_report ⟨chain, rpcUrl, results, stats⟩ (order.walks stats.agentVersions.keys)
  refine ⟨stats, computed, ⟨_, read, rfl, rfl, rfl, rfl, ?_⟩, fun other order' same => ?_⟩
  · exact (stats_published results).trans computed
  · have read' := read_report other (order'.walks other.stats.agentVersions.keys)
    rw [same, read] at read'
    obtain ⟨chains, urls, authorities, statistics⟩ := JsonReport.mk.inj (Option.some.inj read')
    exact ⟨chains.symm, urls.symm, statistics.symm, authorities.symm⟩

end Reading
end Subp2pExplorer.Check
