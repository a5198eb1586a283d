import Subp2pExplorer.Authorities.Dials

/-! What `check_authorities` prints once the discovery has ended: the records
and identified authorities, and how the dials came out. -/
namespace Subp2pExplorer.Check
open Lib Authorities Authorities.AuthorityDiscovery Subp2pExplorer.Types

section Summary
variable {PeerId QueryId : Type}

/-- The libp2p dial results. -/
structure DialResults where
  dialSuccess : Nat
  dialFailed : Nat
  totalAddrs : Nat
  dialPending : Nat
  deriving DecidableEq

/-- The counts over all outcomes; the subtraction saturates. -/
def dialResults (s : AuthorityDiscovery PeerId QueryId) : DialResults :=
  let totalAddrs := (s.authorityToDetails.values.map Finset.card).sum
  { dialSuccess := s.dialOutcomes.values.countP (·.isSuccess)
    dialFailed := s.dialOutcomes.values.countP (·.isFailed)
    totalAddrs := totalAddrs
    dialPending := totalAddrs - s.dialOutcomes.size }

/-- Every outcome is a success or a failure. -/
theorem outcomes_split (outcomes : Multiset DialOutcome) :
    outcomes.countP (·.isSuccess) + outcomes.countP (·.isFailed) = outcomes.card := by
  rw [Multiset.card_eq_countP_add_countP (·.isSuccess) outcomes]
  congr 1
  refine Multiset.countP_congr rfl fun outcome _ => ?_
  cases outcome <;> simp [DialOutcome.isSuccess, DialOutcome.isFailed]

variable [DecidableEq PeerId] {s : AuthorityDiscovery PeerId QueryId}

theorem all_addresses_le : s.allAddresses.card ≤ (dialResults s).totalAddrs := by
  have each : ∀ authority, ((s.authorityToDetails.lookup authority).getD ∅).card =
      (s.authorityToDetails.lookup authority).elim 0 Finset.card := by
    intro authority
    cases s.authorityToDetails.lookup authority <;> rfl
  calc s.allAddresses.card
      ≤ ∑ authority ∈ s.authorityToDetails.keys, ((s.authorityToDetails.lookup authority).getD ∅).card :=
        Finset.card_biUnion_le
    _ = (dialResults s).totalAddrs := by
        simp only [each]
        exact (Finmap.sum_values s.authorityToDetails Finset.card).symm

/-- There are no more outcomes than addresses. -/
theorem outcomes_le (tracked : DialsTracked s) :
    s.dialOutcomes.size ≤ (dialResults s).totalAddrs := by
  have recorded : s.dialOutcomes.keys ⊆ s.allAddresses := by
    intro a member
    rw [← tracked.stored]
    exact tracked.once.recorded a (Finmap.mem_keys.mp member)
  exact (Finset.card_le_card recorded).trans all_addresses_le

end Summary

section Runs
variable {PeerId NodeKey QueryId : Type} [DecidableEq PeerId] [DecidableEq QueryId]
  {net : Network PeerId NodeKey QueryId} {t : AuthorityDiscovery PeerId QueryId}
  {authorities : List PublicKey} {first : Arrangement authorities}
  {turns : List (Turn PeerId QueryId authorities)}

/-- At every boundary the addresses dialed are those of the records, each
dialed once, only they have outcomes, and the printed totals add up. -/
theorem dials_match_records (run : (discovery net authorities first).replay turns = some t) :
    t.dialedAddresses = t.allAddresses ∧
      (∀ a, t.swarm.dials.count a = if a ∈ t.allAddresses then 1 else 0) ∧
      (∀ a ∈ t.dialOutcomes, a ∈ t.dialedAddresses) ∧
      t.dialOutcomes.size ≤ (dialResults t).totalAddrs ∧
      (dialResults t).dialSuccess + (dialResults t).dialFailed + (dialResults t).dialPending =
        (dialResults t).totalAddrs := by
  have tracked := run_tracked run
  have within := outcomes_le tracked
  refine ⟨tracked.stored, fun a => ?_, tracked.once.recorded, within, ?_⟩
  · split
    · rename_i member
      rw [← tracked.stored, ← tracked.once.dialed] at member
      exact List.count_eq_one_of_mem tracked.once.distinct member
    · rename_i apart
      rw [← tracked.stored, ← tracked.once.dialed] at apart
      exact List.count_eq_zero_of_not_mem apart
  · have split := outcomes_split t.dialOutcomes.values
    rw [Finmap.card_values] at split
    show t.dialOutcomes.values.countP (·.isSuccess) + t.dialOutcomes.values.countP (·.isFailed) +
      ((dialResults t).totalAddrs - t.dialOutcomes.size) = (dialResults t).totalAddrs
    rw [split]
    exact Nat.add_sub_cancel' within

private theorem two_authorities : (numberedKeys 2).Nodup := numbered_keys_distinct (by decide)

/-- One address is published, dialed and connected. -/
theorem published_address_dialed : ∃ t,
    (discovery (.counting (.onePublished [namedAddress])) (numberedKeys 2)
      (.listed two_authorities)).replay
        (publishedAnswer ++ [connectedDial]) = some t ∧
    dialResults t = ⟨1, 0, 1, 0⟩ ∧ t.dialedAddresses = t.allAddresses ∧
      (∀ a, t.swarm.dials.count a = if a ∈ t.allAddresses then 1 else 0) ∧
      (∀ a ∈ t.dialOutcomes, a ∈ t.dialedAddresses) ∧
      t.dialOutcomes.size ≤ (dialResults t).totalAddrs ∧
      (dialResults t).dialSuccess + (dialResults t).dialFailed + (dialResults t).dialPending =
        (dialResults t).totalAddrs := by
  have results : ((discovery (.counting (.onePublished [namedAddress])) (numberedKeys 2)
      (.listed two_authorities)).replay
        (publishedAnswer ++ [connectedDial])).map dialResults =
          some ⟨1, 0, 1, 0⟩ := by
    decide +kernel
  obtain ⟨t, run, shown⟩ := Option.map_eq_some_iff.mp results
  exact ⟨t, run, shown, dials_match_records run⟩

end Runs
end Subp2pExplorer.Check
