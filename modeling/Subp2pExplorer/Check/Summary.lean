import Subp2pExplorer.Check.Stats

/-! The printed summary. All of it is formatting but for one slice: long agent
versions are shortened at a byte offset, which in a text chosen by a remote
peer may lie inside a character. -/
namespace Subp2pExplorer.Check
open Lib Authorities

section Printing

/-- `{:>width}`. -/
def padLeft (width : Nat) (text : String) : String := .ofList (List.replicate (width - text.length) ' ') ++ text

/-- `{:<width}`. -/
def padRight (width : Nat) (text : String) : String := text ++ .ofList (List.replicate (width - text.length) ' ')

def number (n : Nat) : String := padLeft 6 (toString n)

/-- A share, as the library formats it. -/
def pct (percent : Nat → Nat → String) (n d : Nat) : String := if 0 < d then percent n d else "N/A"

/-- An agent version as it fits its column, and nothing where the slice panics. -/
def shortenVersion (version : String) : Option String :=
  if 40 < version.utf8ByteSize then (Text.sliceTo version 37).map (· ++ "...") else some version

/-- The line of one agent version. -/
def versionLine (last : Bool) (version : String) (count : Nat) : Option String := do
  let branch := if last then "└─" else "├─"
  let v ← shortenVersion version
  return "  " ++ branch ++ " " ++ padRight 42 v ++ " " ++ padLeft 4 (toString count)

/-- The agent versions, most frequent first, from the order the map is walked in. -/
def sortedVersions (order : List String) (agentVersions : Map String Nat) : List (String × Nat) :=
  ((HashSet.iterate order agentVersions.keys).map fun version =>
    (version, (agentVersions.lookup version).getD 0)).mergeSort fun a b => decide (b.2 ≤ a.2)

def versionLines (order : List String) (agentVersions : Map String Nat) : Option (List String) :=
  let versions := sortedVersions order agentVersions
  if versions.isEmpty then some []
  else do
    let lines ← versions.zipIdx.mapM fun entry =>
      versionLine (entry.2 == versions.length - 1) entry.1.1 entry.1.2
    return "" :: "  Agent Distribution" :: lines

def doubleRule : String := .ofList (List.replicate 72 '═')

/-- `print_global_summary`: the lines written, and nothing where it panics. -/
def printGlobalSummary (percent : Nat → Nat → String) (order : List String) (stats : GlobalStats) :
    Option (List String) := do
  let share (n d : Nat) : String := " (" ++ pct percent n d ++ ")"
  let outOf (n d : Nat) : String := number n ++ "/" ++ padRight 6 (toString d) ++ share n d
  let ofAll (n : Nat) : String := number n ++ share n stats.totalAuthorities
  let dialTotal := stats.dialSuccess + stats.dialFailed + stats.dialPending
  let head := [
    "",
    doubleRule,
    "                          GLOBAL SUMMARY",
    doubleRule,
    "",
    "  Authorities",
    "  ├─ Total (runtime API):          " ++ number stats.totalAuthorities,
    "  ├─ With on-chain identity:       " ++ ofAll stats.withIdentity,
    "  ├─ With DHT records:             " ++ ofAll stats.withDhtRecords,
    "  ├─ With Peer ID:                 " ++ ofAll stats.withPeerId,
    "  └─ Identified (p2p):             " ++ ofAll stats.identified,
    "",
    "  Addresses",
    "  ├─ Total:                        " ++ number stats.totalAddresses,
    "  ├─ Public:                       " ++ number stats.publicAddresses ++
      share stats.publicAddresses stats.totalAddresses,
    "  └─ Private:                      " ++ number stats.privateAddresses ++
      share stats.privateAddresses stats.totalAddresses,
    "",
    "  Connectivity",
    "  ├─ Reachable authorities (>=1):  " ++ ofAll stats.reachableAuthorities,
    "  ├─ Fully reachable (all public): " ++ ofAll stats.fullyReachableAuthorities,
    "  ├─ Public addrs reachable:  " ++ outOf stats.reachablePublic stats.publicAddresses,
    "  └─ Public addrs unreachable:" ++ outOf stats.unreachablePublic stats.publicAddresses,
    "",
    "  Libp2p Dials (noise + yamux + identify)",
    "  ├─ Connected:                    " ++ number stats.dialSuccess ++ share stats.dialSuccess dialTotal,
    "  ├─ Failed:                       " ++ number stats.dialFailed ++ share stats.dialFailed dialTotal,
    "  └─ Pending:                      " ++ number stats.dialPending]
  let versions ← versionLines order stats.agentVersions
  return head ++ versions ++ [""]

end Printing

section Completion
variable {PeerId : Type}

/-- An agent version of a peer whose column is cut inside a character: byte 37
lies inside its base name, and with the backend it is longer than 40 bytes. -/
def Garbled (version : String) : Prop :=
  let base := String.ofList (baseName version.toList)
  37 < base.utf8ByteSize ∧ ¬Text.Boundary base 37 ∧ (40 < base.utf8ByteSize ∨ marker version ≠ "")

private theorem marker_cases (version : String) : marker version = "" ∨ marker version = " (litep2p)" := by
  unfold marker
  split
  · exact .inr rfl
  · exact .inl rfl

private theorem marker_boundary {offset : Nat} (inside : offset ≤ 10) : Text.Boundary " (litep2p)" offset := by
  have all : ∀ n : Fin 11, (Text.sliceTo " (litep2p)" n).isSome = true := by decide
  exact Text.slice_to_some.mp (all ⟨offset, by omega⟩)

private theorem shorten_some {version : String} :
    (shortenVersion version).isSome ↔ (40 < version.utf8ByteSize → Text.Boundary version 37) := by
  unfold shortenVersion
  split
  · rename_i long
    rw [Option.isSome_map, Text.slice_to_some]
    exact ⟨fun boundary _ => boundary, fun boundary => boundary long⟩
  · rename_i short
    exact ⟨fun _ long => absurd long short, fun _ => rfl⟩

/-- A bucket is cut inside a character exactly if its agent version is garbled. -/
theorem shorten_bucket (version : String) : (shortenVersion (bucket version)).isSome ↔ ¬Garbled version := by
  rw [shorten_some, bucket]
  unfold Garbled
  generalize String.ofList (baseName version.toList) = base
  dsimp only
  by_cases beyond : 37 < base.utf8ByteSize
  · rw [Text.boundary_append (Nat.le_of_lt beyond), String.utf8ByteSize_append]
    rcases marker_cases version with none | some
    · rw [none]
      have zero : "".utf8ByteSize = 0 := rfl
      rw [zero]
      simp only [beyond, true_and, ne_eq, not_true_eq_false, or_false, not_and, Nat.add_zero]
      exact ⟨fun whole split long => split (whole long), fun split long => not_not.mp fun apart => split apart long⟩
    · rw [some]
      have ten : " (litep2p)".utf8ByteSize = 10 := rfl
      rw [ten]
      have long : 40 < base.utf8ByteSize + 10 := by omega
      have marked : " (litep2p)" ≠ "" := by decide
      simp only [beyond, long, marked, true_and, ne_eq, not_false_eq_true, or_true, and_true, not_not,
        forall_const]
  · -- The cut is in the marker or the bucket is short enough.
    simp only [beyond, false_and, not_false_eq_true, iff_true]
    rw [String.utf8ByteSize_append]
    rcases marker_cases version with none | some
    · rw [none]
      have zero : "".utf8ByteSize = 0 := rfl
      rw [zero]
      intro long
      omega
    · rw [some]
      have ten : " (litep2p)".utf8ByteSize = 10 := rfl
      rw [ten]
      intro long
      have cut : Text.Boundary (base ++ " (litep2p)") (base.utf8ByteSize + (37 - base.utf8ByteSize)) :=
        Text.boundary_skip (marker_boundary (by omega))
      rwa [Nat.add_sub_cancel' (by omega)] at cut

/-- A traversal that may stop ends exactly if none of its elements stops it. -/
private theorem map_m_some {α β : Type} (f : α → Option β) (l : List α) :
    (l.mapM f).isSome ↔ ∀ a ∈ l, (f a).isSome := by
  induction l with
  | nil => simp
  | cons a rest ih =>
    rw [List.mapM_cons, List.forall_mem_cons, ← ih]
    cases f a with
    | none => simp
    | some b => cases rest.mapM f <;> simp

private theorem version_line_some (last : Bool) (version : String) (count : Nat) :
    (versionLine last version count).isSome ↔ (shortenVersion version).isSome := by
  unfold versionLine
  cases shortenVersion version <;> rfl

private theorem sorted_versions_mem {order : List String} {agentVersions : Map String Nat}
    (walks : HashSet.Walks order agentVersions.keys) {version : String} :
    version ∈ (sortedVersions order agentVersions).map Prod.fst ↔ version ∈ agentVersions := by
  have same := ((List.mergeSort_perm ((HashSet.iterate order agentVersions.keys).map fun version =>
    (version, (agentVersions.lookup version).getD 0)) fun a b => decide (b.2 ≤ a.2)).map Prod.fst)
  rw [sortedVersions, same.mem_iff, List.map_map, HashSet.iterate_walk walks]
  simp [walks.exact, Finmap.mem_keys]

/-- The agent distribution is printed exactly if no version in it is cut inside
a character. -/
theorem version_lines_some {order : List String} {agentVersions : Map String Nat}
    (walks : HashSet.Walks order agentVersions.keys) :
    (versionLines order agentVersions).isSome ↔ ∀ v ∈ agentVersions, (shortenVersion v).isSome := by
  have members : ∀ version, version ∈ (sortedVersions order agentVersions).map Prod.fst ↔
      version ∈ agentVersions := fun _ => sorted_versions_mem walks
  unfold versionLines
  dsimp only
  generalize sortedVersions order agentVersions = versions at members
  have each : (∀ v ∈ agentVersions, (shortenVersion v).isSome) ↔
      ∀ entry ∈ versions.zipIdx,
        (versionLine (entry.2 == versions.length - 1) entry.1.1 entry.1.2).isSome := by
    constructor
    · intro all entry member
      rw [version_line_some]
      refine all _ ((members _).mp (List.mem_map_of_mem ?_))
      exact List.fst_mem_of_mem_zipIdx member
    · intro all v member
      obtain ⟨entry, within, rfl⟩ := List.mem_map.mp ((members v).mpr member)
      obtain ⟨i, bound, rfl⟩ := List.getElem_of_mem within
      have line := all (versions[i], i) (List.mk_mem_zipIdx_iff_getElem?.mpr (List.getElem?_eq_getElem bound))
      rwa [version_line_some] at line
  rw [each, ← map_m_some]
  cases versions with
  | nil => simp
  | cons first rest =>
    simp only [List.isEmpty_cons, Bool.false_eq_true, if_false]
    cases ((first :: rest).zipIdx.mapM fun entry =>
      versionLine (entry.2 == (first :: rest).length - 1) entry.1.1 entry.1.2) <;> rfl

theorem print_summary_some {percent : Nat → Nat → String} {order : List String} {stats : GlobalStats} :
    (printGlobalSummary percent order stats).isSome ↔ (versionLines order stats.agentVersions).isSome := by
  unfold printGlobalSummary
  cases versionLines order stats.agentVersions <;> rfl

/-- The buckets of the statistics are those of the agent versions in the results. -/
private theorem bucketed {results : List (AuthorityResult PeerId)} {stats : GlobalStats}
    (tallied : AuthoritiesTallied results stats) {v : String} :
    v ∈ stats.agentVersions ↔ ∃ r ∈ results, ∃ version, r.agentVersion = some version ∧ bucket version = v := by
  rw [Finmap.mem_iff, tallied.versions]
  constructor
  · rintro ⟨count, held⟩
    split at held
    · cases held
    · rename_i some
      obtain ⟨r, member, counted⟩ := List.countP_pos_iff.mp (Nat.pos_of_ne_zero some)
      obtain ⟨version, own, same⟩ := Option.map_eq_some_iff.mp (of_decide_eq_true counted)
      exact ⟨r, member, version, own, same⟩
  · rintro ⟨r, member, version, own, same⟩
    have counted : inBucket v r = true := decide_eq_true (by rw [own, Option.map_some, same])
    have positive := List.countP_pos_iff.mpr ⟨r, member, counted⟩
    rw [if_neg (Nat.ne_of_gt positive)]
    exact ⟨_, rfl⟩

/-- Normalising and counting agent versions never panics, and the summary is
printed to its end exactly if no agent version is garbled. -/
theorem summary_completes_iff (results : List (AuthorityResult PeerId)) :
    (∀ version, (normalizeAgentVersion version).isSome) ∧
    ∃ stats, computeGlobalStats results = some stats ∧
      ∀ percent order, HashSet.Walks order stats.agentVersions.keys →
        ((printGlobalSummary percent order stats).isSome ↔
          ∀ r ∈ results, ∀ version, r.agentVersion = some version → ¬Garbled version) := by
  refine ⟨fun version => by rw [normalize_agent_version]; rfl, ?_⟩
  obtain ⟨stats, computed, _, _, tallied⟩ := global_stats_tallied results
  refine ⟨stats, computed, fun percent order walks => ?_⟩
  rw [print_summary_some, version_lines_some walks]
  constructor
  · intro all r member version own
    rw [← shorten_bucket]
    exact all _ ((bucketed tallied).mpr ⟨r, member, version, own, rfl⟩)
  · intro all v member
    obtain ⟨r, listed, version, own, rfl⟩ := (bucketed tallied).mp member
    rw [shorten_bucket]
    exact all r listed version own

/-- An authority that was identified with this agent version. -/
def identifiedAs (version : String) : AuthorityResult Nat := ⟨"5F", none, none, some "12D3", some version, true, []⟩

/-- A usual agent version is printed. -/
theorem usual_version_printed : ∃ stats, computeGlobalStats [identifiedAs "Parity Polkadot/v1.21.1-c6ba84fb493 (mynode)"] =
      some stats ∧
    ∀ percent order, HashSet.Walks order stats.agentVersions.keys →
      (printGlobalSummary percent order stats).isSome := by
  obtain ⟨stats, computed, completes⟩ :=
    (summary_completes_iff [identifiedAs "Parity Polkadot/v1.21.1-c6ba84fb493 (mynode)"]).2
  refine ⟨stats, computed, fun percent order walks => (completes percent order walks).mpr ?_⟩
  rintro r member version own ⟨long, _⟩
  rw [List.mem_singleton.mp member] at own
  cases own
  revert long
  decide +kernel

/-- Byte 37 of this agent version lies inside a character. -/
theorem cut_version_panics : ∃ stats,
    computeGlobalStats [identifiedAs "Polkadot community validator client über/v1.0.0"] = some stats ∧
    ∀ percent order, HashSet.Walks order stats.agentVersions.keys → printGlobalSummary percent order stats = none := by
  obtain ⟨stats, computed, _, _, tallied⟩ :=
    global_stats_tallied [identifiedAs "Polkadot community validator client über/v1.0.0"]
  refine ⟨stats, computed, fun percent order walks => ?_⟩
  have held : bucket "Polkadot community validator client über/v1.0.0" ∈ stats.agentVersions :=
    (bucketed tallied).mpr ⟨_, List.mem_cons_self, _, rfl, rfl⟩
  have cut : shortenVersion (bucket "Polkadot community validator client über/v1.0.0") = none := by
    decide +kernel
  rw [← Option.not_isSome_iff_eq_none, print_summary_some, version_lines_some walks]
  intro all
  have printed := all _ held
  rw [cut] at printed
  cases printed

end Completion
end Subp2pExplorer.Check
