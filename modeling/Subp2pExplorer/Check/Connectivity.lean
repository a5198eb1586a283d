import Subp2pExplorer.Lib.Chunks
import Subp2pExplorer.Lib.Maps
import Subp2pExplorer.Lib.Text
import Subp2pExplorer.Authorities.Discovery

/-! The connectivity checks of all discovered addresses. They run in batches,
complete within a batch in any order, and are collected by the authority they
are for. -/
namespace Subp2pExplorer.Check
open Lib Authorities Subp2pExplorer.Types

/-- Result of checking a single address. -/
inductive AddressResult where
  | ok
  | failed (reason : String)
  | skipped (reason : String)
  deriving DecidableEq

/-- Address check details for a single multiaddress. -/
structure AddressCheck (PeerId : Type) where
  addressShort : String
  isPublic : Bool
  result : AddressResult
  dialOutcome : Option DialOutcome
  fullAddress : Option (LibP2pMultiaddr PeerId)

/-- The libraries and the network behind a check: how addresses are shown,
which IP addresses are global, and what a connection to an endpoint answers. -/
structure Probe (PeerId : Type) where
  showAddress : LibP2pMultiaddr PeerId → String
  showIp4 : Ipv4Addr → String
  showIp6 : Ipv6Addr → String
  isGlobal4 : Ipv4Addr → Bool
  isGlobal6 : Ipv6Addr → Bool
  connect : Nat → LibP2pMultiaddr PeerId → String → Except String Unit

section Checks
variable {PeerId : Type} (probe : Probe PeerId)

/-- Remove the `/p2p/<peer_id>` suffix for compact display. The slice ends
where an occurrence starts, so it is always one. -/
def shortenAddress (addr : LibP2pMultiaddr PeerId) : String :=
  let s := probe.showAddress addr
  match Text.beforeLast "/p2p/".toList s.toList with
  | some before => .ofList before
  | none => s

/-- `host:port` for TCP connection checking. -/
def extractTcpEndpoint : LibP2pMultiaddr PeerId → Option String
  | first :: second :: _ => do
    let host ← match first with
      | .ip4 ip => some (probe.showIp4 ip)
      | .ip6 ip => some ("[" ++ probe.showIp6 ip ++ "]")
      | .dns host => some host
      | .dns4 host => some host
      | .dns6 host => some host
      | _ => none
    match second with
    | .tcp port => some (host ++ ":" ++ toString port.toNat)
    | _ => none
  | _ => none

/-- Checks if the p2p address is public. -/
def isPublicAddress : LibP2pMultiaddr PeerId → Bool
  | .ip4 ip :: _ => probe.isGlobal4 ip
  | .ip6 ip :: _ => probe.isGlobal6 ip
  | .dns _ :: _ => true
  | .dns4 _ :: _ => true
  | .dns6 _ :: _ => true
  | _ => false

/-- The check of one address of the authority with this index. -/
def checkAddress (idx : Nat) (addr : LibP2pMultiaddr PeerId) (isPublic : Bool) : AddressCheck PeerId where
  addressShort := shortenAddress probe addr
  isPublic := isPublic
  result :=
    if !isPublic then .skipped "private"
    else match extractTcpEndpoint probe addr with
      | some endpoint =>
        match probe.connect idx addr endpoint with
        | .ok () => .ok
        | .error e => .failed e
      | none => .skipped "unsupported transport"
  dialOutcome := none
  fullAddress := some addr

def maxParallelChecks : Nat := 64

/-- The order in which the checks of each batch complete. -/
structure Completion (PeerId : Type) where
  order : Nat → List (Nat × AddressCheck PeerId) → List (Nat × AddressCheck PeerId)
  complete : ∀ batch results, (order batch results).Perm results

/-- Every check completes in its turn. -/
def Completion.inTurn : Completion PeerId := ⟨fun _ results => results, fun _ _ => .refl _⟩

/-- The results of all checks as they come in. -/
def completed (completion : Completion PeerId) (checks : List (Nat × LibP2pMultiaddr PeerId × Bool)) :
    List (Nat × AddressCheck PeerId) :=
  (chunks maxParallelChecks checks).zipIdx.flatMap fun batch =>
    completion.order batch.2 (batch.1.map fun check => (check.1, checkAddress probe check.1 check.2.1 check.2.2))

/-- `run_connectivity_checks`: the results by the index of their authority. -/
def runConnectivityChecks (completion : Completion PeerId)
    (checks : List (Nat × LibP2pMultiaddr PeerId × Bool)) : Map Nat (List (AddressCheck PeerId)) :=
  (completed probe completion checks).foldl (fun grouped result => grouped.push result.1 result.2) ∅

variable {probe}

/-- Every check completes once. -/
theorem completed_perm (completion : Completion PeerId) (checks : List (Nat × LibP2pMultiaddr PeerId × Bool)) :
    (completed probe completion checks).Perm
      (checks.map fun check => (check.1, checkAddress probe check.1 check.2.1 check.2.2)) := by
  have batches : ∀ (todo : List (List (Nat × LibP2pMultiaddr PeerId × Bool))) (n : Nat),
      ((todo.zipIdx n).flatMap fun batch => completion.order batch.2 (batch.1.map fun check =>
        (check.1, checkAddress probe check.1 check.2.1 check.2.2))).Perm
      (todo.flatten.map fun check => (check.1, checkAddress probe check.1 check.2.1 check.2.2)) := by
    intro todo
    induction todo with
    | nil => exact fun _ => .refl _
    | cons batch rest ih =>
      intro n
      rw [List.zipIdx_cons, List.flatMap_cons, List.flatten_cons, List.map_append]
      exact (completion.complete n _).append (ih (n + 1))
  have all := batches (chunks maxParallelChecks checks) 0
  rw [chunks_flatten (by decide)] at all
  exact all

/-- What is collected under an index is the results of its checks. -/
theorem connectivity_checks_perm (completion : Completion PeerId)
    (checks : List (Nat × LibP2pMultiaddr PeerId × Bool)) (idx : Nat) :
    (((runConnectivityChecks probe completion checks).lookup idx).getD []).Perm
      ((checks.filter (·.1 = idx)).map fun check => checkAddress probe idx check.2.1 check.2.2) := by
  have collected := Finmap.lookup_push_all ∅ (completed probe completion checks) idx
  rw [Finmap.lookup_empty, Option.getD_none, List.nil_append] at collected
  have own : (checks.filter (·.1 = idx)).map (fun check => checkAddress probe idx check.2.1 check.2.2) =
      ((checks.map fun check => (check.1, checkAddress probe check.1 check.2.1 check.2.2)).filter
        (·.1 = idx)).map Prod.snd := by
    rw [List.filter_map, List.map_map]
    refine List.map_congr_left fun check member => ?_
    have same : check.1 = idx := of_decide_eq_true (List.mem_filter.mp member).2
    rw [← same]
    rfl
  rw [runConnectivityChecks, collected, own]
  exact ((completed_perm completion checks).filter _).map _

end Checks
end Subp2pExplorer.Check
