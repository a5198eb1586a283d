import Subp2pExplorer.Check.Totals

/-! What a whole check does for each authority of the list: the addresses its
result ends up with, and the connections that were attempted for it. The list
may repeat an authority; each place in it is checked on its own. -/
namespace Subp2pExplorer.Check
open Lib Authorities Authorities.AuthorityDiscovery Subp2pExplorer.Types

/-- A TCP connection attempted for the authority with an index. -/
structure Attempt (PeerId : Type) where
  idx : Nat
  address : LibP2pMultiaddr PeerId
  endpoint : String

section Attempts
variable {PeerId : Type} (probe : Probe PeerId)

/-- The check of one address, with the connection it attempts. -/
def checkAttempting (idx : Nat) (addr : LibP2pMultiaddr PeerId) (isPublic : Bool) :
    AddressCheck PeerId × List (Attempt PeerId) :=
  let (result, attempted) : AddressResult × List (Attempt PeerId) :=
    if !isPublic then (.skipped "private", [])
    else match extractTcpEndpoint probe addr with
      | some endpoint =>
        match probe.connect idx addr endpoint with
        | .ok () => (.ok, [⟨idx, addr, endpoint⟩])
        | .error e => (.failed e, [⟨idx, addr, endpoint⟩])
      | none => (.skipped "unsupported transport", [])
  (⟨shortenAddress probe addr, isPublic, result, none, some addr⟩, attempted)

/-- The connections attempted by `run_connectivity_checks`, batch by batch. -/
def attempts (checks : List (Nat × LibP2pMultiaddr PeerId × Bool)) : List (Attempt PeerId) :=
  (chunks maxParallelChecks checks).flatMap fun batch =>
    batch.flatMap fun check => (checkAttempting probe check.1 check.2.1 check.2.2).2

variable {probe}

end Attempts

section Results
variable {PeerId QueryId : Type} [DecidableEq PeerId] {naming : Naming PeerId} {course : Course PeerId}
  {s : AuthorityDiscovery PeerId QueryId} {authorities : List PublicKey}

end Results
end Subp2pExplorer.Check
